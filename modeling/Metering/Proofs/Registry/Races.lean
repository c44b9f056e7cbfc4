import Mathlib.Data.List.Induction
import Mathlib.Data.List.Nodup
import Mathlib.Tactic.Abel
import Metering.Proofs.Registry.Sums

/-!
# Proofs — Registry — Races

Calls that run at the same time on one table, step by step in any order.  A `Procedure` says what may be left of a call
and what it has added by then: each step adds something at the call's key, or nothing (`Procedure.step`).  So at any
time a table holds what it held at first and the shares of all calls (`Underway`), whichever steps were taken and in
which order; when all calls have returned, it holds what the same calls leave one after another (`get?_run_of_done`).
Steps themselves come one after another; no weaker order of memory is considered.

Additions to counters and observations of times are such procedures.  An observation adds its share of the minimum when
it puts its sample in place of the one it saw last, or sees one that its sample does not beat: then adding it changes
nothing.  Until then it only looks, however often an exchange fails.

* `race_adds_up`: no addition and no time is lost, and extrema never move back.
-/

namespace Metering

namespace Table

variable {κ α : Type} [DecidableEq κ] [AddCommMonoid α]

/-- One table holds what another does and something more for a key. -/
def Gains (t t' : Table κ α) (key : κ) (added : WithZero α) : Prop :=
  ∀ k, t'.held k = t.held k + if key = k then added else 0

theorem gains_zero (t : Table κ α) (key : κ) : t.Gains t key 0 := by
  intro k
  rw [ite_self, add_zero]

theorem gains_addTo (t : Table κ α) (key : κ) (v : α) : t.Gains (t.addTo key v) key v :=
  fun k => t.held_addTo key k v

theorem gains_ensure (t : Table κ α) (key : κ) :
    t.Gains (if t.contains key then t else t.insert key 0) key (0 : α) :=
  fun k => t.held_ensure key k

/-- What makes no difference to what is held may be added. -/
theorem gains_of_get? {t : Table κ α} {key : κ} {v added : α} (hv : t.get? key = some v)
    (h : v + added = v) : t.Gains t key added := by
  intro k
  by_cases same : key = k
  · subst same
    rw [if_pos rfl, held, hv]
    exact congrArg some h.symm
  · rw [if_neg same, add_zero]

/-- A look that finds an entry adds nothing to it. -/
theorem gains_of_contains {t : Table κ α} {key : κ} (h : t.contains key = true) :
    t.Gains t key (0 : α) := by
  obtain ⟨v, hv⟩ := Option.isSome_iff_exists.mp h
  exact gains_of_get? hv (add_zero v)

theorem mem_keys_addAll (t : Table κ α) (addends : List (κ × α)) (k : κ) :
    k ∈ (t.addAll addends).keys ↔ k ∈ t.keys ∨ k ∈ addends.map Prod.fst := by
  induction addends generalizing t with
  | nil => simp [addAll]
  | cons a rest ih =>
      rw [addAll, List.foldl_cons, ← addAll, ih, addTo, keys_insert, List.map_cons, List.mem_cons]
      split <;> grind

end Table

/-! ### Calls at the same time -/

/-- What a call does in steps, each of which adds something to what a table holds for the key of the call, or leaves it
as it is. -/
structure Procedure (ι τ α : Type) [AddCommMonoid α] where
  start : ι → τ
  done : τ
  advance : Bool → τ → Table Key α → τ × Table Key α
  key : ι → Key
  /-- What a call adds, all its steps together. -/
  addend : ι → α
  /-- What may be left of a call. -/
  Stage : ι → τ → Prop
  /-- What a call has added when that much is left of it. -/
  share : ι → τ → WithZero α
  stage_start : ∀ call, Stage call (start call)
  share_start : ∀ call, share call (start call) = 0
  share_done : ∀ call, share call done = addend call
  step : ∀ spurious call task t, Stage call task →
    Stage call (advance spurious task t).1 ∧
      ∃ added, share call (advance spurious task t).1 = share call task + added ∧
        t.Gains (advance spurious task t).2 (key call) added

namespace Procedure

variable {ι τ α : Type} [AddCommMonoid α] (p : Procedure ι τ α)

/-- What a call has added for a key. -/
def shareAt (k : Key) (x : ι × τ) : WithZero α := if p.key x.1 = k then p.share x.1 x.2 else 0

/-- Where a race is with its calls: what is left of each, and a table that holds what all of them have added. -/
structure Underway (t : Table Key α) (calls : List ι) (race : Race (Table Key α) τ)
    (pairs : List (ι × τ)) : Prop where
  calls : pairs.map Prod.fst = calls
  tasks : pairs.map Prod.snd = race.tasks
  stage : ∀ x ∈ pairs, p.Stage x.1 x.2
  held : ∀ k, race.shared.held k = t.held k + (pairs.map (p.shareAt k)).sum

/-- The race of calls that start together. -/
def race (t : Table Key α) (calls : List ι) : Race (Table Key α) τ := ⟨t, calls.map p.start⟩

theorem underway_start (t : Table Key α) (calls : List ι) :
    p.Underway t calls (p.race t calls) (calls.map fun call => (call, p.start call)) where
  calls := by
    rw [List.map_map]
    exact List.map_id calls
  tasks := by
    rw [List.map_map]
    rfl
  stage x hx := by
    obtain ⟨call, -, rfl⟩ := List.mem_map.mp hx
    exact p.stage_start call
  held k := by
    have nothing : (p.shareAt k ∘ fun call => (call, p.start call)) = fun _ => 0 := by
      funext call
      rw [Function.comp_apply, shareAt, p.share_start, ite_self]
    rw [List.map_map, nothing]
    simp [race]

variable {p}

/-- **One step** of a race adds something to what its table holds, or nothing. -/
theorem Underway.step {t : Table Key α} {calls : List ι} {race : Race (Table Key α) τ}
    {pairs : List (ι × τ)} (h : p.Underway t calls race pairs) (turn : Turn) :
    (∃ pairs, p.Underway t calls (race.step p.advance turn) pairs) ∧
      ∀ k, ∃ added, (race.step p.advance turn).shared.held k = race.shared.held k + added := by
  cases ht : race.tasks[turn.task]? with
  | none =>
      have idle : race.step p.advance turn = race := by rw [Race.step, ht]
      rw [idle]
      exact ⟨⟨pairs, h⟩, fun k => ⟨0, (add_zero _).symm⟩⟩
  | some task =>
      rw [← h.tasks, List.getElem?_map, Option.map_eq_some_iff] at ht
      obtain ⟨⟨call, task⟩, hx, rfl⟩ := ht
      obtain ⟨inside, at_turn⟩ := List.getElem?_eq_some_iff.mp hx
      have law := p.step turn.spurious call task race.shared (h.stage _ (List.mem_of_getElem? hx))
      have moved : race.step p.advance turn =
          ⟨(p.advance turn.spurious task race.shared).2,
            race.tasks.set turn.task (p.advance turn.spurious task race.shared).1⟩ := by
        rw [Race.step, ← h.tasks, List.getElem?_map, hx]
        rfl
      rw [moved]
      generalize p.advance turn.spurious task race.shared = result at law ⊢
      obtain ⟨rest, shared⟩ := result
      obtain ⟨stage, added, share, gains⟩ := law
      -- the pairs around the one whose turn it is stay as they are
      obtain ⟨before, after, split, set⟩ : ∃ before after, pairs = before ++ (call, task) :: after ∧
          pairs.set turn.task (call, rest) = before ++ (call, rest) :: after := by
        obtain ⟨before, after, split, -, set⟩ := List.exists_of_set inside
        exact ⟨before, after, at_turn ▸ split, set⟩
      refine ⟨⟨pairs.set turn.task (call, rest), ?_, ?_, ?_, ?_⟩, fun k => ⟨_, gains k⟩⟩
      · rw [← h.calls, set, split]
        simp
      · rw [← h.tasks, List.map_set]
      · intro x hx
        rcases List.mem_or_eq_of_mem_set hx with hx | rfl
        · exact h.stage x hx
        · exact stage
      · intro k
        have gained : p.shareAt k (call, rest) =
            p.shareAt k (call, task) + if p.key call = k then added else 0 := by
          simp only [shareAt]
          split
          · exact share
          · exact (add_zero 0).symm
        rw [gains k, h.held k, set, split]
        simp only [List.map_append, List.map_cons, List.sum_append, List.sum_cons, gained]
        abel

/-- **All steps.** -/
theorem Underway.run {t : Table Key α} {calls : List ι} {race : Race (Table Key α) τ}
    {pairs : List (ι × τ)} (h : p.Underway t calls race pairs) (schedule : List Turn) :
    ∃ pairs, p.Underway t calls (race.run p.advance schedule) pairs := by
  induction schedule using List.reverseRecOn with
  | nil => exact ⟨pairs, h⟩
  | append_singleton schedule turn ih =>
      obtain ⟨pairs, h⟩ := ih
      rw [Race.run_append]
      exact (h.step turn).1

variable (p)

/-- A step of a race never takes anything away. -/
theorem held_run_concat (t : Table Key α) (calls : List ι) (schedule : List Turn) (turn : Turn)
    (k : Key) : ∃ added, ((p.race t calls).run p.advance (schedule ++ [turn])).shared.held k =
      ((p.race t calls).run p.advance schedule).shared.held k + added := by
  obtain ⟨pairs, h⟩ := (p.underway_start t calls).run schedule
  rw [Race.run_append]
  exact (h.step turn).2 k

/-- **All calls have returned.**  The table holds what they leave one after another, in any order. -/
theorem get?_run_of_done {t : Table Key α} {calls : List ι} {schedule : List Turn}
    (returned : ∀ task ∈ ((p.race t calls).run p.advance schedule).tasks, task = p.done)
    {order : List ι} (h : order.Perm calls) (k : Key) :
    ((p.race t calls).run p.advance schedule).shared.get? k =
      (t.addAll (order.map fun call => (p.key call, p.addend call))).get? k := by
  obtain ⟨pairs, now⟩ := (p.underway_start t calls).run schedule
  have shares : pairs.map (p.shareAt k) = calls.map fun call =>
      if p.key call = k then (p.addend call : WithZero α) else 0 := by
    rw [← now.calls, List.map_map]
    refine List.map_congr_left fun x hx => ?_
    have done : x.2 = p.done := returned _ (now.tasks ▸ List.mem_map_of_mem hx)
    rw [shareAt, done, p.share_done, Function.comp_apply]
  rw [Table.get?_addAll_of_perm (h.map fun call => (p.key call, p.addend call)) rfl]
  change Table.held _ k = Table.held _ k
  rw [now.held k, shares, Table.held_addAll, List.map_map]
  rfl

/-- There is one entry for each key that had one or that a call was for. -/
theorem count_keys_of_done {t : Table Key α} {calls : List ι} {schedule : List Turn}
    (returned : ∀ task ∈ ((p.race t calls).run p.advance schedule).tasks, task = p.done) (k : Key) :
    ((p.race t calls).run p.advance schedule).shared.keys.count k =
      if k ∈ t.keys ∨ k ∈ calls.map p.key then 1 else 0 := by
  have same := p.get?_run_of_done returned (List.Perm.refl calls) k
  have held : k ∈ ((p.race t calls).run p.advance schedule).shared.keys ↔
      k ∈ t.keys ∨ k ∈ calls.map p.key := by
    rw [Table.mem_keys_iff, Table.contains, same, ← Table.contains, ← Table.mem_keys_iff,
      Table.mem_keys_addAll, List.map_map]
    rfl
  rw [(Table.nodup_keys _).count]
  simp only [held]

end Procedure

/-! ### Additions to counters -/

namespace Counters

/-- What may be left of an addition. -/
inductive Addition.StageOf (a : Key × UInt64) : Addition → Prop where
  | lookUp : StageOf a (.lookUp a.1 a.2)
  | create : StageOf a (.create a.1 a.2)
  | add : StageOf a (.add a.1 a.2)
  | done : StageOf a .done

/-- What an addition has added when that much is left of it. -/
def Addition.share (a : Key × UInt64) : Addition → WithZero UInt64
  | .lookUp .. | .create .. => 0
  | .add .. => (0 : UInt64)
  | .done => a.2

/-- Additions to counters. -/
def addition : Procedure (Key × UInt64) Addition UInt64 where
  start a := .lookUp a.1 a.2
  done := .done
  advance := Addition.advance
  key := Prod.fst
  addend := Prod.snd
  Stage := Addition.StageOf
  share := Addition.share
  stage_start _ := .lookUp
  share_start _ := rfl
  share_done _ := rfl
  step spurious a task c h := by
    cases h with
    | lookUp =>
        rw [Addition.advance]
        split
        · exact ⟨.add, (0 : UInt64), rfl, Table.gains_of_contains ‹_›⟩
        · exact ⟨.create, 0, rfl, c.gains_zero a.1⟩
    | create => exact ⟨.add, (0 : UInt64), rfl, c.gains_ensure a.1⟩
    | add => exact ⟨.done, a.2, (congrArg some (zero_add a.2)).symm, c.gains_addTo a.1 a.2⟩
    | done => exact ⟨.done, 0, (add_zero _).symm, c.gains_zero a.1⟩

end Counters

/-! ### Observations of times -/

namespace Timings

/-- What a sample brings to the minimum. -/
def Sample.least (s : Sample) : Option UInt64 :=
  if s.trackMin then some (Timing.sample s.elapsed) else none

/-- What a sample brings to the maximum. -/
def Sample.greatest (s : Sample) : Option UInt64 :=
  if s.trackMax then some (Timing.sample s.elapsed) else none

theorem Sample.summary_eq (s : Sample) : s.summary = ⟨s.elapsed, 1, s.least, s.greatest⟩ := by
  simp [summary, Timing.record, Timing.extremum, least, greatest]

/-- An extremum after a sample is the sample if that is to replace it. -/
theorem extremum_eq (beats : UInt64 → UInt64 → Bool) (held : Option UInt64) (sample : UInt64) :
    Timing.extremum beats held sample = if replaces beats held sample then some sample else held := by
  cases held <;> rfl

section
variable {beats : UInt64 → UInt64 → Bool} {pick : UInt64 → UInt64 → UInt64}
  (law : ∀ held sample, Timing.extremum beats held sample = held.merge pick (some sample))
  {held : Option UInt64} {sample : UInt64}
include law

/-- A sample that is to replace an extremum is all there is of both. -/
theorem merge_of_replaces (h : replaces beats held sample = true) :
    held.merge pick (some sample) = some sample := by
  rw [← law, extremum_eq, h, if_pos rfl]

/-- One that is not makes no difference. -/
theorem merge_of_not_replaces (h : replaces beats held sample = false) :
    held.merge pick (some sample) = held := by
  rw [← law, extremum_eq, h, if_neg Bool.false_ne_true]

end

namespace Observation

/-- What may be left of an observation.  It goes on to an exchange only where its sample is to replace what it saw. -/
inductive StageOf (s : Sample) : Observation → Prop where
  | lookUp : StageOf s (.lookUp s)
  | create : StageOf s (.create s)
  | addTime : StageOf s (.addTime s)
  | count : StageOf s (.count s)
  | readMin (tracked : s.trackMin = true) : StageOf s (.readMin s)
  | exchangeMin {seen : Option UInt64} (tracked : s.trackMin = true)
      (beats : replaces (· < ·) seen (Timing.sample s.elapsed) = true) :
      StageOf s (.exchangeMin s seen)
  | readMax (tracked : s.trackMax = true) : StageOf s (.readMax s)
  | exchangeMax {seen : Option UInt64} (tracked : s.trackMax = true)
      (beats : replaces (· > ·) seen (Timing.sample s.elapsed) = true) :
      StageOf s (.exchangeMax s seen)
  | done : StageOf s .done

/-- What an observation has added when that much is left of it. -/
def share (s : Sample) : Observation → WithZero Timing
  | .lookUp _ | .create _ => 0
  | .addTime _ => (0 : Timing)
  | .count _ => ({ sum := s.elapsed } : Timing)
  | .readMin _ | .exchangeMin _ _ => ({ sum := s.elapsed, completed := 1 } : Timing)
  | .readMax _ | .exchangeMax _ _ =>
      ({ sum := s.elapsed, completed := 1, min := s.least } : Timing)
  | .done => s.summary

theorem stageOf_afterMin (s : Sample) : StageOf s (afterMin s) := by
  rw [afterMin]
  split
  · exact .readMax ‹_›
  · exact .done

theorem share_afterMin (s : Sample) : share s (afterMin s) =
    share s (.readMin s) + (({ min := s.least } : Timing) : WithZero Timing) := by
  rw [afterMin]
  cases h : s.trackMax <;>
    simp [share, Sample.summary_eq, Sample.greatest, h, ← WithZero.coe_add, Timing.add_def]

theorem stageOf_afterCount (s : Sample) : StageOf s (afterCount s) := by
  rw [afterCount]
  split
  · exact .readMin ‹_›
  · exact stageOf_afterMin s

theorem share_afterCount (s : Sample) : share s (afterCount s) =
    share s (.count s) + (({ completed := 1 } : Timing) : WithZero Timing) := by
  rw [afterCount]
  cases h : s.trackMin with
  | true => simp [share, ← WithZero.coe_add, Timing.add_def]
  | false =>
      rw [if_neg Bool.false_ne_true, share_afterMin]
      simp [share, Sample.least, h, ← WithZero.coe_add, Timing.add_def]

theorem share_done (s : Sample) :
    share s .done = share s (.readMax s) + (({ max := s.greatest } : Timing) : WithZero Timing) := by
  simp [share, Sample.summary_eq, ← WithZero.coe_add, Timing.add_def]

/-- What is held for a key that has a record. -/
theorem get?_of_record {t : Timings} {key : Key} (h : record t key ≠ {}) :
    t.get? key = some (record t key) := by
  rw [record] at h ⊢
  cases hg : t.get? key with
  | none => rw [hg] at h; exact absurd rfl h
  | some r => rfl

/-- What a sample that is not to replace the minimum brings to it makes no difference. -/
theorem gains_min {t : Timings} {s : Sample} (tracked : s.trackMin = true)
    (h : replaces (· < ·) (record t s.key).min (Timing.sample s.elapsed) = false) :
    t.Gains t s.key (({ min := s.least } : Timing) : WithZero Timing) := by
  have present : record t s.key ≠ {} := fun e => by rw [e] at h; cases h
  refine Table.gains_of_get? (get?_of_record present) ?_
  simp [Timing.add_def, Sample.least, tracked, merge_of_not_replaces Timing.extremum_lt h]

/-- And of one that replaces it, all that it brings is there then. -/
theorem gains_exchangeMin {t : Timings} {s : Sample} (tracked : s.trackMin = true)
    (h : replaces (· < ·) (record t s.key).min (Timing.sample s.elapsed) = true) :
    t.Gains (t.insert s.key { record t s.key with min := some (Timing.sample s.elapsed) }) s.key
      (({ min := s.least } : Timing) : WithZero Timing) := by
  have added : record t s.key + { min := s.least } =
      { record t s.key with min := some (Timing.sample s.elapsed) } := by
    simp [Timing.add_def, Sample.least, tracked, merge_of_replaces Timing.extremum_lt h]
  rw [← added]
  exact t.gains_addTo s.key _

theorem gains_max {t : Timings} {s : Sample} (tracked : s.trackMax = true)
    (h : replaces (· > ·) (record t s.key).max (Timing.sample s.elapsed) = false) :
    t.Gains t s.key (({ max := s.greatest } : Timing) : WithZero Timing) := by
  have present : record t s.key ≠ {} := fun e => by rw [e] at h; cases h
  refine Table.gains_of_get? (get?_of_record present) ?_
  simp [Timing.add_def, Sample.greatest, tracked, merge_of_not_replaces Timing.extremum_gt h]

theorem gains_exchangeMax {t : Timings} {s : Sample} (tracked : s.trackMax = true)
    (h : replaces (· > ·) (record t s.key).max (Timing.sample s.elapsed) = true) :
    t.Gains (t.insert s.key { record t s.key with max := some (Timing.sample s.elapsed) }) s.key
      (({ max := s.greatest } : Timing) : WithZero Timing) := by
  have added : record t s.key + { max := s.greatest } =
      { record t s.key with max := some (Timing.sample s.elapsed) } := by
    simp [Timing.add_def, Sample.greatest, tracked, merge_of_replaces Timing.extremum_gt h]
  rw [← added]
  exact t.gains_addTo s.key _

/-- **Looking at the minimum.**  Either an exchange comes next, or the sample has brought all that it can. -/
theorem onMin_law (t : Timings) {s : Sample} (tracked : s.trackMin = true) :
    StageOf s (onMin s (record t s.key).min) ∧
      ∃ added, share s (onMin s (record t s.key).min) = share s (.readMin s) + added ∧
        t.Gains t s.key added := by
  rw [onMin]
  cases h : replaces (· < ·) (record t s.key).min (Timing.sample s.elapsed) with
  | true =>
      rw [if_pos rfl]
      exact ⟨.exchangeMin tracked h, 0, (add_zero _).symm, t.gains_zero s.key⟩
  | false =>
      rw [if_neg Bool.false_ne_true]
      exact ⟨stageOf_afterMin s, _, share_afterMin s, gains_min tracked h⟩

/-- **Looking at the maximum.** -/
theorem onMax_law (t : Timings) {s : Sample} (tracked : s.trackMax = true) :
    StageOf s (onMax s (record t s.key).max) ∧
      ∃ added, share s (onMax s (record t s.key).max) = share s (.readMax s) + added ∧
        t.Gains t s.key added := by
  rw [onMax]
  cases h : replaces (· > ·) (record t s.key).max (Timing.sample s.elapsed) with
  | true =>
      rw [if_pos rfl]
      exact ⟨.exchangeMax tracked h, 0, (add_zero _).symm, t.gains_zero s.key⟩
  | false =>
      rw [if_neg Bool.false_ne_true]
      exact ⟨.done, _, share_done s, gains_max tracked h⟩

end Observation

/-- Observations of times. -/
def observation : Procedure Sample Observation Timing where
  start := .lookUp
  done := .done
  advance := Observation.advance
  key := Sample.key
  addend := Sample.summary
  Stage := Observation.StageOf
  share := Observation.share
  stage_start _ := .lookUp
  share_start _ := rfl
  share_done _ := rfl
  step spurious s o t h := by
    cases h with
    | lookUp =>
        rw [Observation.advance]
        split
        · exact ⟨.addTime, (0 : Timing), rfl, Table.gains_of_contains ‹_›⟩
        · exact ⟨.create, 0, rfl, t.gains_zero s.key⟩
    | create => exact ⟨.addTime, (0 : Timing), rfl, t.gains_ensure s.key⟩
    | addTime =>
        have added : Observation.record t s.key + { sum := s.elapsed } =
            { Observation.record t s.key with
              sum := (Observation.record t s.key).sum + s.elapsed } := by
          simp [Timing.add_def]
        refine ⟨.count, ({ sum := s.elapsed } : Timing), (congrArg some (zero_add _)).symm, ?_⟩
        rw [Observation.advance, ← added]
        exact t.gains_addTo s.key _
    | count =>
        have added : Observation.record t s.key + { completed := 1 } =
            { Observation.record t s.key with
              completed := (Observation.record t s.key).completed + 1 } := by
          simp [Timing.add_def]
        refine ⟨Observation.stageOf_afterCount s, _, Observation.share_afterCount s, ?_⟩
        rw [Observation.advance, ← added]
        exact t.gains_addTo s.key _
    | readMin tracked => exact Observation.onMin_law t tracked
    | exchangeMin tracked beats =>
        rw [Observation.advance]
        split
        · -- what was seen is still there, so the sample still is to replace it
          rename_i unchanged
          refine ⟨Observation.stageOf_afterMin s, _, Observation.share_afterMin s, ?_⟩
          exact Observation.gains_exchangeMin tracked (unchanged.1 ▸ beats)
        · exact Observation.onMin_law t tracked
    | readMax tracked => exact Observation.onMax_law t tracked
    | exchangeMax tracked beats =>
        rw [Observation.advance]
        split
        · rename_i unchanged
          refine ⟨.done, _, Observation.share_done s, ?_⟩
          exact Observation.gains_exchangeMax tracked (unchanged.1 ▸ beats)
        · exact Observation.onMax_law t tracked
    | done => exact ⟨.done, 0, (add_zero _).symm, t.gains_zero s.key⟩

end Timings

/-! ### What is left when all have returned -/

/-- Extrema that were set stay set, and they only get better. -/
structure Timing.Onward (old new : Timing) : Prop where
  min : ∀ m, old.min = some m → ∃ m', new.min = some m' ∧ m' ≤ m
  max : ∀ m, old.max = some m → ∃ m', new.max = some m' ∧ m ≤ m'

theorem Timing.onward_add (t u : Timing) : t.Onward (t + u) where
  min m hm := by
    rw [add_def, hm]
    cases u.min with
    | none => exact ⟨m, rfl, UInt64.le_refl m⟩
    | some m' =>
        refine ⟨lesser m m', rfl, ?_⟩
        rw [UInt64.le_iff_toNat_le, toNat_lesser]
        exact Nat.min_le_left ..
  max m hm := by
    rw [add_def, hm]
    cases u.max with
    | none => exact ⟨m, rfl, UInt64.le_refl m⟩
    | some m' =>
        refine ⟨greater m m', rfl, ?_⟩
        rw [UInt64.le_iff_toNat_le, toNat_greater]
        exact Nat.le_max_left ..

theorem Timing.onward_of_held {t t' : Timings} {k : Key} {added : WithZero Timing}
    (h : t'.held k = t.held k + added) {old : Timing} (ht : t.get? k = some old) :
    ∃ new, t'.get? k = some new ∧ old.Onward new := by
  rw [Table.held, Table.held, ht] at h
  cases added with
  | zero => exact ⟨old + 0, h.trans (congrArg some (add_zero old).symm), old.onward_add 0⟩
  | coe u => exact ⟨old + u, h, old.onward_add u⟩

/-- **Calls at the same time.**  Take any times to be taken in and any schedule of their steps, exchanges failing also
for no reason.  When all calls have returned, each key holds what the same calls leave one after another, in whichever
order, and there is one record for each key that had one or that a call was for; and at every step on the way, extrema
that were set stay set and only get better.  So it is with additions to counters. -/
theorem race_adds_up :
    (∀ (t : Timings) (samples : List Timings.Sample) (schedule : List Turn),
      let after := (Race.mk t (samples.map .lookUp)).run Timings.Observation.advance
      ((∀ task ∈ (after schedule).tasks, task = .done) →
        (∀ order : List Timings.Sample, order.Perm samples → ∀ k,
          (after schedule).shared.get? k = (t.observeAll order).get? k) ∧
        ∀ k, (after schedule).shared.keys.count k =
          if k ∈ t.keys ∨ k ∈ samples.map (·.key) then 1 else 0) ∧
      ∀ turn k old, (after schedule).shared.get? k = some old →
        ∃ new, (after (schedule ++ [turn])).shared.get? k = some new ∧ old.Onward new) ∧
    ∀ (c : Counters) (additions : List (Key × UInt64)) (schedule : List Turn),
      let after := (Race.mk c (additions.map fun a => .lookUp a.1 a.2)).run
        Counters.Addition.advance
      (∀ task ∈ (after schedule).tasks, task = .done) →
        (∀ order : List (Key × UInt64), order.Perm additions → ∀ k,
          (after schedule).shared.get? k = (c.addAll order).get? k) ∧
        ∀ k, (after schedule).shared.keys.count k =
          if k ∈ c.keys ∨ k ∈ additions.map Prod.fst then 1 else 0 := by
  refine ⟨fun t samples schedule => ⟨fun returned => ⟨fun order h k => ?_, fun k => ?_⟩,
    fun turn k old ht => ?_⟩, fun c additions schedule returned => ⟨fun order h k => ?_, fun k => ?_⟩⟩
  · rw [Timings.observeAll_eq]
    exact Timings.observation.get?_run_of_done returned h k
  · exact Timings.observation.count_keys_of_done returned k
  · obtain ⟨added, h⟩ := Timings.observation.held_run_concat t samples schedule turn k
    exact Timing.onward_of_held h ht
  · rw [Counters.addAll_eq, ← List.map_id order]
    exact Counters.addition.get?_run_of_done returned h k
  · exact Counters.addition.count_keys_of_done returned k

/-- Two times of one key that find no record, so that both go to make it.  Each sees no minimum; the greater one's
exchange then fails, as the other's was first.  Its exchange of the maximum fails once for no reason, and the other's
because it comes too late.  Two additions for one key find no counter either. -/
theorem race_two_calls :
    let k := Key.entity "A"
    let greater : Timings.Sample := ⟨k, 5, true, true⟩
    let lesser : Timings.Sample := ⟨k, 3, true, true⟩
    let turns (tasks : List Nat) : List Turn := tasks.map fun task => ⟨task, false⟩
    let schedule := turns [0, 1, 0, 1, 0, 1, 0, 1, 0, 1, 1, 0, 0, 1] ++ ⟨0, true⟩ :: turns [0, 1]
    let timed := (Race.mk .empty ([greater, lesser].map .lookUp)).run
      Timings.Observation.advance schedule
    let added := (Race.mk .empty ([(k, 2), (k, 4)].map fun a => .lookUp a.1 a.2)).run
      Counters.Addition.advance (turns [0, 1, 1, 0, 1, 0])
    ((∀ task ∈ timed.tasks, task = .done) ∧ timed.shared.get? k = some ⟨8, 2, some 3, some 5⟩ ∧
        timed.shared.keys.count k = 1) ∧
      (∀ task ∈ added.tasks, task = .done) ∧ added.shared.get? k = some 6 ∧
        added.shared.keys.count k = 1 := by
  intro k greater lesser turns schedule timed added
  have timed_done : ∀ task ∈ timed.tasks, task = .done := by decide +kernel
  have added_done : ∀ task ∈ added.tasks, task = .done := by decide +kernel
  obtain ⟨times, records⟩ := (race_adds_up.1 .empty [greater, lesser] schedule).1 timed_done
  obtain ⟨totals, counters⟩ := race_adds_up.2 .empty [(k, 2), (k, 4)] _ added_done
  exact ⟨⟨timed_done, (times _ (List.Perm.refl _) k).trans (by decide +kernel),
      (records k).trans (if_pos (.inr List.mem_cons_self))⟩,
    added_done, (totals _ (List.Perm.refl _) k).trans (by decide +kernel),
      (counters k).trans (if_pos (.inr List.mem_cons_self))⟩

end Metering
