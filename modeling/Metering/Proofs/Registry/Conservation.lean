import Mathlib.Data.List.Dedup
import Mathlib.Data.Multiset.AddSub
import Mathlib.Tactic.Abel
import Metering.Proofs.Registry.Reads

/-!
# Proofs — Registry — Conservation

Where the starts of a history have gone.  A start is replaced by a later one, used up by a completion that takes in its
time, or still waiting, and each start has one of these fates (`begun_eq`): the correlations of the starts are those
of the three together, as often as they occur.  One operation keeps this balance (`awaiting_apply`).

The times that were taken in are counted key by key in the summaries (`Series.sum_completed`), so the numbers balance as
well (`starts_add_up`).
-/

namespace Metering.Registry
open History

/-! ### The starts of a history -/

/-- The starts of a history. -/
def begun (events : List Event) : List Correlation := events.filterMap (started? ·.operation)

/-- The correlation of a start that replaces one that waits. -/
def replaced? (r : Registry) (e : Event) : Option Correlation :=
  match e.operation with
  | .recordCreation _ id => (r.births.start id e.now).1.map fun _ => .life id
  | .recordCallStart key id => (r.callStarts.start (key, id) e.now).1.map fun _ => .call key id
  | _ => none

/-- The starts that were replaced. -/
def replaced (events : List Event) : List Correlation :=
  (mapBefore (fun before e => (empty.run before).2.replaced? e) events).filterMap id

/-- The correlation of a completion that takes in a time. -/
def completed? (op : Operation) (outcome : Outcome) : Option Correlation :=
  ((lifetimeTaken op outcome).or (execTimeTaken op outcome)).bind fun _ => ended? op

/-- The starts that were used up. -/
def completed (events : List Event) : List Correlation :=
  (entries events).filterMap fun x => completed? x.operation x.outcome

/-- The starts that wait. -/
def awaiting (r : Registry) : List Correlation :=
  r.births.keys.map .life ++ r.callStarts.keys.map fun c => .call c.1 c.2

theorem mem_awaiting {r : Registry} {c : Correlation} :
    c ∈ r.awaiting ↔ (r.waiting c).isSome = true := by
  cases c with
  | life id =>
      have held : id ∈ r.births.keys ↔ (r.births.get? id).isSome = true := Table.mem_keys_iff
      simpa [awaiting] using held
  | call key id =>
      have held : (key, id) ∈ r.callStarts.keys ↔ (r.callStarts.get? (key, id)).isSome = true :=
        Table.mem_keys_iff
      simpa [awaiting] using held

theorem nodup_awaiting (r : Registry) : r.awaiting.Nodup := by
  refine List.nodup_append.mpr ⟨r.births.nodup_keys.map fun _ _ h => Correlation.life.inj h,
    r.callStarts.nodup_keys.map fun _ _ h => Prod.ext_iff.mpr (Correlation.call.inj h), ?_⟩
  rintro a ha b hb rfl
  obtain ⟨id, -, rfl⟩ := List.mem_map.mp ha
  obtain ⟨c, -, h⟩ := List.mem_map.mp hb
  cases h

/-- Any list of what waits, each start once, is as good. -/
theorem perm_awaiting {r : Registry} {cs : List Correlation} (nodup : cs.Nodup)
    (h : ∀ c, (r.waiting c).isSome = true ↔ c ∈ cs) : r.awaiting.Perm cs :=
  (List.perm_ext_iff_of_nodup r.nodup_awaiting nodup).mpr fun c => mem_awaiting.trans (h c)

/-! ### What one operation does -/

/-- A start replaces the one that waits, if one does. -/
theorem replaced?_eq (r : Registry) (e : Event) :
    r.replaced? e = (started? e.operation).filter fun c => (r.waiting c).isSome := by
  obtain ⟨now, op⟩ := e
  cases op with
  | recordCreation key id =>
      change (r.births.get? id).map _ = Option.filter _ (some (Correlation.life id))
      rw [Option.filter_some, waiting_life]
      cases r.births.get? id <;> rfl
  | recordCallStart key id =>
      change (r.callStarts.get? (key, id)).map _ = Option.filter _ (some (Correlation.call key id))
      rw [Option.filter_some, waiting_call]
      cases r.callStarts.get? (key, id) <;> rfl
  | _ => rfl

/-- A completion uses up the start that waits, if one does. -/
theorem completed?_apply (r : Registry) (now : UInt64) (op : Operation) :
    completed? op (r.apply now op).1 = (ended? op).filter fun c => (r.waiting c).isSome := by
  have lives := lifetimeSeries.takes_apply r now op
  have calls := execTimeSeries.takes_apply r now op
  change lifetimeTaken op _ = (lifetimeEnded op).bind _ at lives
  change execTimeTaken op _ = (execTimeEnded op).bind _ at calls
  rw [completed?, lives, calls]
  cases op with
  | recordLifetime key id =>
      rw [lifetimeEnded, ended?, Option.filter_some]
      cases h : r.waiting (.life id) <;> simp [h, execTimeEnded]
  | recordCallEnd key id | incrementExceptionExits key id =>
      rw [execTimeEnded, ended?, Option.filter_some]
      cases h : r.waiting (.call key id) <;> simp [h, lifetimeEnded]
  | _ => rfl

/-- A completion takes its start away from what waits. -/
theorem awaiting_of_ended (r : Registry) (now : UInt64) {op : Operation} {c : Correlation}
    (h : ended? op = some c) : (r.apply now op).2.awaiting.Perm (r.awaiting.erase c) := by
  refine perm_awaiting (r.nodup_awaiting.erase c) fun c' => ?_
  rw [waiting_apply, h, r.nodup_awaiting.mem_erase_iff, mem_awaiting]
  by_cases same : c = c'
  · simp [same]
  · have hs := (started?_eq_none_or op).resolve_right (by simp [h])
    simp [same, Ne.symm same, hs]

/-- A start is among what waits, once. -/
theorem awaiting_of_started (r : Registry) (now : UInt64) {op : Operation} {c : Correlation}
    (h : started? op = some c) : (r.apply now op).2.awaiting.Perm (c :: r.awaiting.erase c) := by
  have nodup := r.nodup_awaiting
  refine perm_awaiting (List.nodup_cons.mpr ⟨nodup.not_mem_erase, nodup.erase c⟩) fun c' => ?_
  have he := (started?_eq_none_or op).resolve_left (by simp [h])
  rw [waiting_apply, h, he, List.mem_cons, nodup.mem_erase_iff, mem_awaiting]
  by_cases same : c = c'
  · simp [same]
  · simp [same, Ne.symm same]

/-- What waits, with one start apart if it waits. -/
theorem coe_awaiting (r : Registry) (c : Correlation) :
    (r.awaiting : Multiset Correlation) =
      ((some c).filter fun c => (r.waiting c).isSome).toList + (r.awaiting.erase c : List _) := by
  rw [Option.filter_some]
  split
  · rename_i h
    exact Multiset.coe_eq_coe.mpr (List.perm_cons_erase (mem_awaiting.mpr h))
  · rename_i h
    rw [List.erase_of_not_mem (mt mem_awaiting.mp h)]
    rfl

/-- **One operation.**  What waited and what starts is replaced, is used up, or waits. -/
theorem awaiting_apply (r : Registry) (now : UInt64) (op : Operation) :
    (r.awaiting + (started? op).toList : Multiset Correlation) =
      (r.replaced? ⟨now, op⟩).toList + (completed? op (r.apply now op).1).toList +
        (r.apply now op).2.awaiting := by
  rw [replaced?_eq, completed?_apply]
  cases he : ended? op with
  | some c =>
      have hs := (started?_eq_none_or op).resolve_right (by simp [he])
      rw [hs, r.coe_awaiting c, Multiset.coe_eq_coe.mpr (r.awaiting_of_ended now he)]
      simp
  | none =>
      cases hs : started? op with
      | some c =>
          -- the start that was there makes room for the new one
          rw [r.coe_awaiting c, Multiset.coe_eq_coe.mpr (r.awaiting_of_started now hs),
            ← Multiset.cons_coe, ← Multiset.singleton_add, Option.toList_some,
            Multiset.coe_singleton, Option.filter_none, Option.toList_none, Multiset.coe_nil]
          abel
      | none =>
          have same : (r.apply now op).2.awaiting.Perm r.awaiting := by
            refine perm_awaiting r.nodup_awaiting fun c => ?_
            rw [waiting_apply, he, hs, mem_awaiting]
            simp
          rw [Multiset.coe_eq_coe.mpr same]
          simp

/-! ### What a history does -/

theorem begun_concat (events : List Event) (e : Event) :
    begun (events ++ [e]) = begun events ++ (started? e.operation).toList := by
  rw [begun, List.filterMap_append, begun]
  cases h : started? e.operation <;> simp [h]

theorem replaced_concat (events : List Event) (e : Event) :
    replaced (events ++ [e]) = replaced events ++ ((empty.run events).2.replaced? e).toList := by
  rw [replaced, mapBefore_concat, List.filterMap_append, replaced]
  cases (empty.run events).2.replaced? e <;> rfl

theorem completed_concat (events : List Event) (e : Event) :
    completed (events ++ [e]) = completed events ++
      (completed? e.operation ((empty.run events).2.apply e.now e.operation).1).toList := by
  rw [completed, entries_concat, List.filterMap_append, completed]
  exact congrArg _ (filterMap_toList (some (entryAfter events e)) _)

/-- **All starts.**  Each was replaced, was used up, or waits. -/
theorem begun_eq (events : List Event) :
    (begun events : Multiset Correlation) =
      replaced events + completed events + (empty.run events).2.awaiting := by
  induction events using List.reverseRecOn with
  | nil => rfl
  | append_singleton events e ih =>
      have balance := (empty.run events).2.awaiting_apply e.now e.operation
      calc (begun (events ++ [e]) : Multiset Correlation)
          = replaced events + completed events +
              ((empty.run events).2.awaiting + (started? e.operation).toList) := by
            rw [begun_concat, ← Multiset.coe_add, ih, add_assoc]
        _ = replaced events + completed events +
              (((empty.run events).2.replaced? e).toList +
                (completed? e.operation ((empty.run events).2.apply e.now e.operation).1).toList +
                (empty.run (events ++ [e])).2.awaiting) := by
            rw [balance, run_concat]
        _ = replaced (events ++ [e]) + completed (events ++ [e]) +
              (empty.run (events ++ [e])).2.awaiting := by
            rw [replaced_concat, completed_concat, ← Multiset.coe_add, ← Multiset.coe_add]
            abel

/-! ### In numbers -/

/-- Keys with how often each occurs in a list of just these keys add up to its length. -/
theorem sum_map_count {κ : Type} [DecidableEq κ] {keys xs : List κ} (nodup : keys.Nodup)
    (h : ∀ k, k ∈ keys ↔ k ∈ xs) : (keys.map fun k => xs.count k).sum = xs.length := by
  have same : keys.Perm xs.dedup := (List.perm_ext_iff_of_nodup nodup xs.nodup_dedup).mpr fun k => by
    rw [h, List.mem_dedup]
  rw [(same.map _).sum_eq, List.sum_map_count_dedup_eq_length]

/-- The keys for which times were taken in. -/
def Series.keysTaken (s : Series) (events : List Event) : List Key :=
  (entries events).filterMap fun x => (s.takes x.operation x.outcome).map Prod.fst

theorem Series.length_taken (s : Series) (k : Key) (events : List Event) :
    (s.taken k events).length = (s.keysTaken events).count k := by
  rw [keysTaken, ← countP_eq_some, taken, List.length_filterMap_eq_countP]
  refine List.countP_congr fun x _ => ?_
  rw [time?]
  cases s.takes x.operation x.outcome with
  | none => simp
  | some y => by_cases same : y.1 = k <;> simp [same]

theorem Series.length_keysTaken_le (s : Series) (events : List Event) :
    (s.keysTaken events).length ≤ events.length :=
  (List.length_filterMap_le ..).trans_eq (length_entries events)

/-- **Summaries.**  Over all keys they count every time that was taken in. -/
theorem Series.sum_completed (s : Series) {events : List Event} (short : events.length < 2 ^ 64) :
    let t := s.timings (empty.run events).2
    (t.keys.map fun k => (t.get? k).elim 0 (·.completed.toNat)).sum =
      (s.keysTaken events).length := by
  intro t
  -- no key has so many times that their number would wrap
  have one (k : Key) : (t.get? k).elim 0 (·.completed.toNat) = (s.keysTaken events).count k := by
    have counted := (s.sumsUp_run events k).1.completed
    rw [s.length_taken, Nat.mod_eq_of_lt] at counted
    · rw [← counted]
      change _ = ((t.get? k).getD {}).completed.toNat
      cases t.get? k <;> rfl
    · exact (List.count_le_length.trans (s.length_keysTaken_le events)).trans_lt short
  simp only [one]
  refine sum_map_count t.nodup_keys fun k => ?_
  rw [Table.mem_keys_iff, s.contains_run, decide_eq_true_iff, s.length_taken, List.count_pos_iff]

/-! ### Kinds of starts -/

def Correlation.isLife : Correlation → Bool
  | life _ => true
  | call _ _ => false

def Correlation.isCall : Correlation → Bool
  | life _ => false
  | call _ _ => true

/-- Completions take in lifetimes where they are of lives, and times of calls where they are of calls. -/
theorem any_completed? (op : Operation) (outcome : Outcome) :
    (completed? op outcome).any (·.isLife) = (lifetimeTaken op outcome).isSome ∧
      (completed? op outcome).any (·.isCall) = (execTimeTaken op outcome).isSome := by
  cases op with
  | recordLifetime | recordCallEnd => cases outcome <;> exact ⟨rfl, rfl⟩
  | incrementExceptionExits => rcases outcome with _ | _ | _ | (_ | _) | _ <;> exact ⟨rfl, rfl⟩
  | _ => exact ⟨rfl, rfl⟩

theorem countP_awaiting (r : Registry) :
    r.awaiting.countP (·.isLife) = r.pendingCreations ∧
      r.awaiting.countP (·.isCall) = r.pendingCalls := by
  simp [awaiting, List.countP_map, Function.comp_def, Correlation.isLife, Correlation.isCall,
    pendingCreations, pendingCalls, Table.length_keys]

theorem countP_begun (events : List Event) :
    (begun events).countP (·.isLife) = (events.countP fun e => (lifeBegun e.operation).isSome) ∧
      (begun events).countP (·.isCall) = events.countP fun e => (callBegun e.operation).isSome := by
  rw [begun, List.countP_filterMap, List.countP_filterMap]
  refine ⟨List.countP_congr fun e _ => ?_, List.countP_congr fun e _ => ?_⟩
  · cases e.operation <;> simp [started?, lifeBegun, Correlation.isLife]
  · cases e.operation <;> simp [started?, callBegun, Correlation.isCall]

/-- **One kind.**  Its starts in numbers, where its completions are those that a family of summaries takes in. -/
theorem Series.countP_starts (s : Series) {kind : Correlation → Bool}
    (own : ∀ op outcome, (completed? op outcome).any kind = (s.takes op outcome).isSome)
    {events : List Event} (short : events.length < 2 ^ 64) :
    let r := (empty.run events).2
    (begun events).countP kind = (replaced events).countP kind +
      ((s.timings r).keys.map fun k => ((s.timings r).get? k).elim 0 (·.completed.toNat)).sum +
        r.awaiting.countP kind := by
  intro r
  have used : (completed events).countP kind = (s.keysTaken events).length := by
    rw [completed, List.countP_filterMap, keysTaken, List.length_filterMap_eq_countP]
    refine List.countP_congr fun x _ => ?_
    rw [Option.isSome_map, ← own]
    cases completed? x.operation x.outcome <;> rfl
  have all : (begun events).Perm (replaced events ++ completed events ++ r.awaiting) :=
    Multiset.coe_eq_coe.mp (begun_eq events)
  rw [all.countP_eq, List.countP_append, List.countP_append, used, s.sum_completed short]

/-- **Conservation.**  After a history on a new registry the starts are those that were replaced, those that a
completion used up as it took in a time, and those that wait, each as often as it occurs.  So, for fewer than `2 ^ 64`
operations, there are as many creations as creations that replaced another, lifetimes completed over all keys, and
creations that wait; and as many starts of calls as starts that replaced another, times of calls completed over all
keys, and calls that wait. -/
theorem starts_add_up {events : List Event} (short : events.length < 2 ^ 64) :
    let r := (empty.run events).2
    (begun events).Perm (replaced events ++ completed events ++ r.awaiting) ∧
      (events.countP fun e => (lifeBegun e.operation).isSome) =
        (replaced events).countP (·.isLife) +
          ((r.keys .lifetimes).map fun k => (r.lifetime? k).elim 0 (·.completed.toNat)).sum +
            r.pendingCreations ∧
      (events.countP fun e => (callBegun e.operation).isSome) =
        (replaced events).countP (·.isCall) +
          ((r.keys .execTimes).map fun k => (r.execTime? k).elim 0 (·.completed.toNat)).sum +
            r.pendingCalls := by
  intro r
  obtain ⟨creations, calls⟩ := countP_begun events
  obtain ⟨pending_creations, pending_calls⟩ := r.countP_awaiting
  have lives := lifetimeSeries.countP_starts (fun op x => (any_completed? op x).1) short
  have timed := execTimeSeries.countP_starts (fun op x => (any_completed? op x).2) short
  refine ⟨Multiset.coe_eq_coe.mp (begun_eq events), ?_, ?_⟩
  · rw [← creations, ← pending_creations, lives]
    rfl
  · rw [← calls, ← pending_calls, timed]
    rfl

/-- An object is created twice and ends under another key; one of two calls ends, exceptionally. -/
theorem starts_of_replaced_creation :
    let k := Key.operation "A" "f"
    let events : List Event := [⟨0, .recordCreation (.entity "A") 1⟩,
      ⟨5, .recordCreation (.entity "A") 1⟩, ⟨6, .recordCallStart k 7⟩, ⟨7, .recordCallStart k 8⟩,
      ⟨9, .recordLifetime (.entity "B") 1⟩, ⟨12, .incrementExceptionExits k 7⟩]
    let r := (empty.run events).2
    events.length < 2 ^ 64 ∧
      (begun events).Perm [.life 1, .life 1, .call k 7, .call k 8] ∧
      2 = 1 + ((r.keys .lifetimes).map fun k => (r.lifetime? k).elim 0 (·.completed.toNat)).sum +
        r.pendingCreations ∧
      2 = 0 + ((r.keys .execTimes).map fun k => (r.execTime? k).elim 0 (·.completed.toNat)).sum +
        r.pendingCalls := by
  intro k events r
  have short : events.length < 2 ^ 64 := by decide
  obtain ⟨all, creations, calls⟩ := starts_add_up short
  have replaced_once : replaced events = [.life 1] := by decide +kernel
  have used : completed events = [.life 1, .call k 7] := by decide +kernel
  have waits : r.awaiting = [.call k 8] := by decide +kernel
  rw [replaced_once] at all creations calls
  rw [used, waits] at all
  exact ⟨short, all, creations, calls⟩

end Metering.Registry
