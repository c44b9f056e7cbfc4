import Mathlib.Data.List.Induction
import Mathlib.Data.Set.Card
import Metering.Proofs.Registry.Steps

/-!
# Proofs — Registry — Waiting

What a history says of a start and its completion.  A creation and the end of a life belong together by the number of
the object alone; the start of a call and its end, normal or exceptional, by the key and the number (`Correlation`).
`waitingSince` reads a history for one correlation: the reading of the clock at the latest start, unless a completion
came after it.

* `waiting_run`: the starts that wait in a registry are those that its history leaves waiting.
* `outcome_of_ended`: a completion answers by the start that waits, and fails if none does.
* `outcome_of_latest`: so the outcome of a completion is told by the latest event of its correlation.

That a start is used once, and that a start during another makes the completion of the outer one fail, is the same fact:
after a completion nothing waits until the next start (`waitingSince_eq_none`).
-/

namespace Metering.Registry

/-- What ties a start to its completion. -/
inductive Correlation where
  | life (object : UInt64)
  | call (key : Key) (number : UInt64)
deriving DecidableEq

/-- The correlation that an operation starts. -/
def started? : Operation → Option Correlation
  | .recordCreation _ id => some (.life id)
  | .recordCallStart key id => some (.call key id)
  | _ => none

/-- The correlation that an operation completes, if its start is there. -/
def ended? : Operation → Option Correlation
  | .recordLifetime _ id => some (.life id)
  | .recordCallEnd key id | .incrementExceptionExits key id => some (.call key id)
  | _ => none

/-- No operation does both. -/
theorem started?_eq_none_or (op : Operation) : started? op = none ∨ ended? op = none := by
  cases op <;> simp [started?, ended?]

/-- The correlation that an operation starts or completes. -/
def correlation? (op : Operation) : Option Correlation := (started? op).or (ended? op)

theorem correlation?_of_ended {op : Operation} {c : Correlation} (h : ended? op = some c) :
    correlation? op = some c := by
  rw [correlation?, (started?_eq_none_or op).resolve_right (by simp [h]), h, Option.none_or]

/-- What an operation says of a correlation: that it starts (`true`), that it is completed, or nothing. -/
def mark (c : Correlation) (op : Operation) : Option Bool :=
  if ended? op = some c then some false else if started? op = some c then some true else none

/-- What a completion answers when it takes in a time, and when it does not. -/
def Operation.answer (op : Operation) (time : Option UInt64) : Outcome :=
  match op with
  | recordLifetime key id | recordCallEnd key id =>
      time.elim (.failed (miss key id)) .completed
  | incrementExceptionExits _ _ => .exited time
  | _ => .recorded

/-- The time from one reading of the clock to another stops at zero. -/
theorem elapsed_eq (start now : UInt64) :
    elapsed start now = .ofNat (now.toNat - start.toNat) := by
  refine UInt64.toNat_inj.mp ?_
  have small : now.toNat - start.toNat < 2 ^ 64 := by have := now.toNat_lt; omega
  rw [UInt64.toNat_ofNat_of_lt' small, elapsed]
  split
  · rename_i h
    exact UInt64.toNat_sub_of_le now start h
  · rename_i h
    rw [UInt64.le_iff_toNat_le] at h
    exact (Nat.sub_eq_zero_of_le (by omega)).symm

/-! ### Reading a history -/

/-- What an event says of a correlation: that a start waits from now on, that none does, or nothing. -/
def told (c : Correlation) (e : Event) : Option (Option UInt64) :=
  if ended? e.operation = some c then some none
  else if started? e.operation = some c then some (some e.now) else none

/-- The reading of the clock at the latest start, unless a completion came after it. -/
def waitingSince (c : Correlation) (events : List Event) : Option UInt64 :=
  (events.filterMap (told c)).getLast?.join

theorem told_of_ended {c : Correlation} {e : Event} (h : ended? e.operation = some c) :
    told c e = some none := if_pos h

theorem waitingSince_concat (c : Correlation) (events : List Event) (e : Event) :
    waitingSince c (events ++ [e]) = (told c e).getD (waitingSince c events) := by
  rw [waitingSince, List.filterMap_append]
  cases h : told c e with
  | none => rw [List.filterMap_cons_none h, List.filterMap_nil, List.append_nil]; rfl
  | some reading =>
      rw [List.filterMap_cons_some h, List.filterMap_nil, List.getLast?_concat]
      rfl

/-- After a completion nothing waits until the next start. -/
theorem waitingSince_eq_none {c : Correlation} {e : Event} (h : ended? e.operation = some c)
    (before : List Event) {between : List Event}
    (quiet : ∀ x ∈ between, started? x.operation ≠ some c) :
    waitingSince c (before ++ e :: between) = none := by
  induction between using List.reverseRecOn with
  | nil => rw [waitingSince_concat, told_of_ended h]; rfl
  | append_singleton between x ih =>
      have quiet' : ∀ y ∈ between, started? y.operation ≠ some c :=
        fun y hy => quiet y (List.mem_append_left _ hy)
      have hx : started? x.operation ≠ some c := quiet x (by simp)
      rw [← List.cons_append, ← List.append_assoc, waitingSince_concat, ih quiet', told,
        if_neg hx]
      split <;> rfl

/-- Events that say nothing of a correlation leave it as it was. -/
theorem waitingSince_append {c : Correlation} {events : List Event}
    (quiet : events.filterMap (told c) = []) (before : List Event) :
    waitingSince c (before ++ events) = waitingSince c before := by
  rw [waitingSince, List.filterMap_append, quiet, List.append_nil, waitingSince]

theorem map_isSome_told (c : Correlation) (events : List Event) :
    (events.filterMap (told c)).map (·.isSome) =
      (events.map (·.operation)).filterMap (mark c) := by
  rw [List.filterMap_map, List.map_filterMap]
  refine List.filterMap_congr fun e _ => ?_
  rw [told, Function.comp_apply, mark]
  split
  · rfl
  · split <;> rfl

/-- A start waits when the last that the operations say of it is that it starts. -/
theorem isSome_waitingSince (c : Correlation) (events : List Event) :
    (waitingSince c events).isSome =
      ((events.map (·.operation)).filterMap (mark c)).getLast?.getD false := by
  rw [← map_isSome_told, List.getLast?_map, waitingSince]
  cases (events.filterMap (told c)).getLast? <;> rfl

/-! ### What one operation does -/

/-- The reading of the clock at the start that waits in a registry. -/
def waiting (r : Registry) : Correlation → Option UInt64
  | .life id => r.births.get? id
  | .call key id => r.callStarts.get? (key, id)

@[simp] theorem waiting_life (r : Registry) (id : UInt64) :
    r.waiting (.life id) = r.births.get? id := rfl

@[simp] theorem waiting_call (r : Registry) (key : Key) (id : UInt64) :
    r.waiting (.call key id) = r.callStarts.get? (key, id) := rfl

/-- **One operation.**  A start waits from then on, a completion takes the start away, and other starts stay. -/
theorem waiting_apply (r : Registry) (now : UInt64) (op : Operation) (c : Correlation) :
    (r.apply now op).2.waiting c =
      if ended? op = some c then none else if started? op = some c then some now
      else r.waiting c := by
  cases op with
  | configure options =>
      obtain ⟨fixed, step⟩ := r.apply_configure now options
      rw [step]
      cases c <;> rfl
  | recordCreation key id =>
      cases c with
      | life id' =>
          change (r.births.insert id now).get? id' = _
          simp [Table.get?_insert, started?, ended?]
      | call => rfl
  | recordLifetime key id =>
      obtain ⟨lifetimes, step⟩ := r.apply_recordLifetime now key id
      rw [step]
      cases c with
      | life id' => simp [Pending.get?_take, started?, ended?]
      | call => rfl
  | recordCallStart key id =>
      cases c with
      | life => rfl
      | call key' id' =>
          change (r.callStarts.insert (key, id) now).get? (key', id') = _
          simp [Table.get?_insert, started?, ended?]
  | recordCallEnd key id =>
      obtain ⟨time, step⟩ := r.apply_recordCallEnd now key id
      rw [step]
      cases c with
      | life => rfl
      | call key' id' => simp [Pending.get?_take, started?, ended?]
  | incrementExceptionExits key id =>
      obtain ⟨time, step⟩ := r.apply_incrementExceptionExits now key id
      rw [step]
      cases c with
      | life => rfl
      | call key' id' => simp [Pending.get?_take, started?, ended?]
  | incrementInstances | decrementLive | incrementCalls => cases c <;> rfl

/-- The end of a call answers by the start that waits. -/
theorem finishCall_fst (r : Registry) (now : UInt64) (key : Key) (id : UInt64) :
    (r.finishCall now key id).1 = (r.waiting (.call key id)).map (elapsed · now) := by
  rw [waiting_call, finishCall, Pending.take]
  cases r.callStarts.get? (key, id) <;> rfl

/-- **One completion.**  It answers by the start that waits. -/
theorem outcome_of_ended (r : Registry) (now : UInt64) {op : Operation} {c : Correlation}
    (h : ended? op = some c) :
    (r.apply now op).1 = op.answer ((r.waiting c).map (elapsed · now)) := by
  cases op with
  | recordLifetime key id =>
      cases h
      change Outcome.ofCompletion (r.recordLifetime now key id).1 = _
      rw [waiting_life, recordLifetime, Pending.take]
      cases r.births.get? id <;> rfl
  | recordCallEnd key id =>
      cases h
      rw [← finishCall_fst]
      change Outcome.ofCompletion (r.recordCallEnd now key id).1 = _
      unfold recordCallEnd
      obtain ⟨time, r'⟩ := r.finishCall now key id
      cases time <;> rfl
  | incrementExceptionExits key id =>
      cases h
      exact congrArg Outcome.exited (finishCall_fst _ now key id)
  | _ => cases h

/-! ### What a history does -/

/-- The registry after one more event. -/
theorem run_concat (r : Registry) (events : List Event) (e : Event) :
    r.run (events ++ [e]) =
      ((r.run events).1 ++ [((r.run events).2.apply e.now e.operation).1],
        ((r.run events).2.apply e.now e.operation).2) :=
  r.run_append events [e]

theorem length_outcomes (r : Registry) (events : List Event) :
    (r.run events).1.length = events.length := by
  induction events generalizing r with
  | nil => rfl
  | cons e rest ih => simp [run, ih]

/-- The outcome of an event is that of its operation, on the registry that the events before it leave. -/
theorem outcome_of_run (r : Registry) (before : List Event) (e : Event) (after : List Event) :
    (r.run (before ++ e :: after)).1[before.length]? =
      some ((r.run before).2.apply e.now e.operation).1 := by
  rw [run_append, List.getElem?_append_right (by rw [length_outcomes]), length_outcomes,
    Nat.sub_self]
  rfl

/-- What waits after a history is told by the last event that tells of it, and else waited before. -/
theorem waiting_run_from (r : Registry) (events : List Event) (c : Correlation) :
    (r.run events).2.waiting c = (events.filterMap (told c)).getLast?.getD (r.waiting c) := by
  induction events using List.reverseRecOn with
  | nil => rfl
  | append_singleton events e ih =>
      rw [run_concat, waiting_apply, ih, List.filterMap_append]
      by_cases he : ended? e.operation = some c
      · simp [told, he]
      · by_cases hs : started? e.operation = some c <;> simp [told, he, hs]

/-- **What waits.** -/
theorem waiting_run (events : List Event) (c : Correlation) :
    (empty.run events).2.waiting c = waitingSince c events := by
  have none_waits : empty.waiting c = none := by cases c <;> rfl
  rw [waiting_run_from, none_waits, waitingSince]
  cases (events.filterMap (told c)).getLast? <;> rfl

/-- A table has as many entries as there are keys that have a value. -/
theorem size_eq_ncard {κ α : Type} [DecidableEq κ] (t : Table κ α) :
    t.size = {k | (t.get? k).isSome}.ncard := by
  have keys : {k | (t.get? k).isSome} = (t.keys.toFinset : Set κ) := by
    ext k
    rw [List.coe_toFinset]
    exact Table.mem_keys_iff.symm
  rw [keys, Set.ncard_coe_finset, List.toFinset_card_of_nodup t.nodup_keys, Table.length_keys]

/-- **Starts and completions.**  In any history, at any readings of the clock, a completion takes in a time if and only
if the latest event of its correlation is a start, and the time is then that since this start, zero if the clock went
back.  After any beginning of the history as many starts wait as there are correlations of which the latest event is a
start.  Of two completions without a start between them the later one fails, whichever ways they complete. -/
theorem outcome_of_latest (events : List Event) :
    (∀ before e after c, events = before ++ e :: after → ended? e.operation = some c →
        (empty.run events).1[before.length]? = some (e.operation.answer
          ((waitingSince c before).map fun start => .ofNat (e.now.toNat - start.toNat)))) ∧
      (∀ before, before <+: events →
        let r := (empty.run before).2
        r.pendingCreations = {id | (waitingSince (.life id) before).isSome}.ncard ∧
          r.pendingCalls = {c : Key × UInt64 | (waitingSince (.call c.1 c.2) before).isSome}.ncard) ∧
      (∀ before e between e' after c, events = before ++ e :: between ++ e' :: after →
        ended? e.operation = some c → ended? e'.operation = some c →
        (∀ x ∈ between, started? x.operation ≠ some c) →
        (empty.run events).1[(before ++ e :: between).length]? =
          some (e'.operation.answer none)) := by
  have outcome {before after : List Event} {e : Event} {c : Correlation}
      (he : ended? e.operation = some c) :
      (empty.run (before ++ e :: after)).1[before.length]? = some (e.operation.answer
        ((waitingSince c before).map fun start => .ofNat (e.now.toNat - start.toNat))) := by
    rw [outcome_of_run, outcome_of_ended _ _ he, waiting_run]
    simp only [elapsed_eq]
  refine ⟨?_, ?_, ?_⟩
  · rintro before e after c rfl he
    exact outcome he
  · rintro before -
    simp only [← waiting_run]
    exact ⟨size_eq_ncard _, size_eq_ncard _⟩
  · rintro before e between e' after c rfl he he' quiet
    rw [outcome he', waitingSince_eq_none he before quiet]
    rfl

/-- A call that starts within itself: the inner end takes in the time, although the clock went back, and the outer one,
an exceptional exit, takes in none. -/
theorem outcome_reentrant_call :
    let k := Key.operation "A" "f"
    let outer : Event := ⟨10, .recordCallStart k 1⟩
    let inner : Event := ⟨20, .recordCallStart k 1⟩
    let ended : Event := ⟨15, .recordCallEnd k 1⟩
    let exited : Event := ⟨30, .incrementExceptionExits k 1⟩
    let outcomes := (empty.run [outer, inner, ended, exited]).1
    (ended? ended.operation = some (.call k 1) ∧ ended? exited.operation = some (.call k 1)) ∧
      outcomes[2]? = some (.completed 0) ∧ outcomes[3]? = some (.exited none) := by
  intro k outer inner ended exited outcomes
  have since : waitingSince (.call k 1) [outer, inner] = some 20 := by
    simp [waitingSince, told, outer, inner, started?, ended?]
  obtain ⟨completion, -, again⟩ := outcome_of_latest [outer, inner, ended, exited]
  have first := completion [outer, inner] ended [exited] (.call k 1) rfl rfl
  rw [since] at first
  exact ⟨⟨rfl, rfl⟩, first, again [outer, inner] ended [] exited [] (.call k 1) rfl rfl rfl (by simp)⟩

end Metering.Registry
