import Metering.Proofs.Rearrangement
import Metering.Proofs.Registry.Reads
import Metering.Proofs.Registry.Sums

/-!
# Proofs — Registry — Reordered

Two histories of the same events in different orders.  Where the starts and completions of each correlation keep their
order, every event has the same outcome in both, and both leave the same to be read, whoever reported first.

What waits for a completion is told by the events of its correlation before it, and these are the same in both
(`waiting_take`); so outcomes are the same event by event (`outcome_of_kept`).  All else that a registry holds adds up
from operations and their outcomes (`counters_run`, `timings_run`), so the order of these does not matter
(`alike_run`).

Options are fixed before: an operation that fixes them does not commute with completions.
-/

namespace Metering.Registry
open History

/-! ### What operations leave, in any order -/

/-- The operations of a history with their outcomes. -/
def answered (r : Registry) (events : List Event) : List (Operation × Outcome) :=
  (events.map (·.operation)).zip (r.run events).1

theorem answered_cons (r : Registry) (e : Event) (rest : List Event) :
    r.answered (e :: rest) = (e.operation, (r.apply e.now e.operation).1) ::
      (r.apply e.now e.operation).2.answered rest := rfl

/-- Counters after a history are those before it and one more for each operation that counts. -/
theorem Tally.counters_run (t : Tally) (r : Registry) (events : List Event) :
    t.counters (r.run events).2 = (t.counters r).addAll
      ((r.answered events).filterMap fun x => (t.counted x.1 x.2).map (·, 1)) := by
  induction events generalizing r with
  | nil => rfl
  | cons e rest ih =>
      rw [answered_cons, List.filterMap_cons]
      change t.counters ((r.apply e.now e.operation).2.run rest).2 = _
      rw [ih, t.counters_apply]
      cases t.counted e.operation (r.apply e.now e.operation).1 <;> rfl

/-- An operation that fixes no options leaves them as they are. -/
theorem options_apply {op : Operation} (h : fixes? op = none) (r : Registry) (now : UInt64) :
    (r.apply now op).2.options = r.options := by
  rw [options, fixed_apply, h, Option.or_none, options]

theorem options_run_of_recording {events : List Event} (h : ∀ e ∈ events, fixes? e.operation = none)
    (r : Registry) : (r.run events).2.options = r.options := by
  induction events generalizing r with
  | nil => rfl
  | cons e rest ih =>
      change ((r.apply e.now e.operation).2.run rest).2.options = _
      rw [ih fun x hx => h x (List.mem_cons_of_mem e hx), options_apply (h e List.mem_cons_self)]

/-- Summaries after a history that fixes no options are those before it and one more time for each operation that takes
one in. -/
theorem Series.timings_run (s : Series) (r : Registry) {events : List Event}
    (h : ∀ e ∈ events, fixes? e.operation = none) :
    s.timings (r.run events).2 =
      (s.timings r).observeAll ((r.answered events).filterMap fun x => (s.takes x.1 x.2).map fun y =>
        ⟨y.1, y.2, s.keepsMin r.options, s.keepsMax r.options⟩) := by
  induction events generalizing r with
  | nil => rfl
  | cons e rest ih =>
      have same := options_apply (h e List.mem_cons_self) r e.now
      rw [answered_cons, List.filterMap_cons]
      change s.timings ((r.apply e.now e.operation).2.run rest).2 = _
      rw [ih _ fun x hx => h x (List.mem_cons_of_mem e hx), s.timings_apply, same]
      cases s.takes e.operation (r.apply e.now e.operation).1 <;> rfl

/-! ### Registries that hold the same -/

/-- Two registries hold the same for every key and every correlation, and keep the same statistics.  How their tables
are laid out does not matter. -/
structure Alike (r r' : Registry) : Prop where
  options : r.options = r'.options
  instances : ∀ k, r.instances.get? k = r'.instances.get? k
  finished : ∀ k, r.finished.get? k = r'.finished.get? k
  lifetimes : ∀ k, r.lifetimes.get? k = r'.lifetimes.get? k
  calls : ∀ k, r.calls.get? k = r'.calls.get? k
  execTimes : ∀ k, r.execTimes.get? k = r'.execTimes.get? k
  exceptionExits : ∀ k, r.exceptionExits.get? k = r'.exceptionExits.get? k
  waiting : ∀ c, r.waiting c = r'.waiting c

/-- New registries with the same options are alike, whether these were fixed or not. -/
theorem alike_new {fixed fixed' : Option RecordOptions} (h : fixed.getD {} = fixed'.getD {}) :
    Alike { fixed } { fixed := fixed' } :=
  ⟨h, fun _ => rfl, fun _ => rfl, fun _ => rfl, fun _ => rfl, fun _ => rfl, fun _ => rfl, fun c => by
    cases c <;> rfl⟩

/-- Everything that can be read of two registries is the same; keys come in any order. -/
structure SameReads (r r' : Registry) : Prop where
  options : r.options = r'.options
  instanceTotal : ∀ k, r.instanceTotal k = r'.instanceTotal k
  instanceLive : ∀ k, r.instanceLive k = r'.instanceLive k
  lifetime? : ∀ k, r.lifetime? k = r'.lifetime? k
  callCount : ∀ k, r.callCount k = r'.callCount k
  execTime? : ∀ k, r.execTime? k = r'.execTime? k
  exceptionExitCount : ∀ k, r.exceptionExitCount k = r'.exceptionExitCount k
  contains : ∀ category k, r.contains category k = r'.contains category k
  keys : ∀ category, (r.keys category).Perm (r'.keys category)
  pendingCreations : r.pendingCreations = r'.pendingCreations
  pendingCalls : r.pendingCalls = r'.pendingCalls

theorem Alike.contains_eq {r r' : Registry} (h : Alike r r') (category : Category) (k : Key) :
    r.contains category k = r'.contains category k := by
  cases category with
  | instances => exact congrArg Option.isSome (h.instances k)
  | lifetimes => exact congrArg Option.isSome (h.lifetimes k)
  | calls => exact congrArg Option.isSome (h.calls k)
  | execTimes => exact congrArg Option.isSome (h.execTimes k)
  | exceptionExits => exact congrArg Option.isSome (h.exceptionExits k)

/-- **Reading.**  Of registries that hold the same, the same is read. -/
theorem Alike.sameReads {r r' : Registry} (h : Alike r r') : SameReads r r' where
  options := h.options
  instanceTotal k := congrArg (·.getD 0) (h.instances k)
  instanceLive k := by
    simp only [Registry.instanceLive, Counters.total, h.instances k, h.finished k]
  lifetime? := h.lifetimes
  callCount k := congrArg (·.getD 0) (h.calls k)
  execTime? := h.execTimes
  exceptionExitCount k := congrArg (·.getD 0) (h.exceptionExits k)
  contains := h.contains_eq
  keys category := by
    refine (List.perm_ext_iff_of_nodup (r.nodup_keys category) (r'.nodup_keys category)).mpr fun k => ?_
    rw [mem_keys_iff, mem_keys_iff, h.contains_eq]
  pendingCreations := by
    have same : r.births.get? = r'.births.get? := funext fun id => h.waiting (.life id)
    simp only [Registry.pendingCreations, size_eq_ncard, same]
  pendingCalls := by
    have same : r.callStarts.get? = r'.callStarts.get? := funext fun c => h.waiting (.call c.1 c.2)
    simp only [Registry.pendingCalls, size_eq_ncard, same]

/-! ### Events in another order -/

/-- An event starts or completes a correlation. -/
def concerns (c : Correlation) (e : Event) : Bool := correlation? e.operation = some c

theorem isSome_told (c : Correlation) (e : Event) : (told c e).isSome = concerns c e := by
  by_cases he : ended? e.operation = some c
  · simp [told, concerns, he, correlation?_of_ended he]
  · by_cases hs : started? e.operation = some c <;> simp [told, concerns, correlation?, he, hs]

/-- The events that tell of a correlation are those that concern it. -/
theorem filterMap_told (c : Correlation) (events : List Event) :
    (events.filter (concerns c)).filterMap (told c) = events.filterMap (told c) := by
  rw [List.filterMap_filter]
  refine List.filterMap_congr fun e _ => ?_
  rw [← isSome_told]
  cases told c e <;> rfl

/-- Two histories of the same events, in which those that concern one correlation keep their order. -/
structure Reordering (events events' : List Event) extends Rearrangement events events' where
  kept : ∀ c, toRearrangement.Keeps (concerns c)

section
variable {events events' : List Event} (ρ : Reordering events events') {r r' : Registry}

/-- Before an event the same start waits for what it concerns. -/
theorem waiting_take (alike : Alike r r') (i : Fin events.length) {c : Correlation}
    (hi : concerns c events[i] = true) :
    (r'.run (events'.take (ρ.place i))).2.waiting c = (r.run (events.take i)).2.waiting c := by
  have same : (events'.take (ρ.place i)).filterMap (told c) = (events.take i).filterMap (told c) := by
    rw [← filterMap_told, (ρ.kept c).filter_take i hi, filterMap_told]
  rw [waiting_run_from, waiting_run_from, same, alike.waiting c]

include ρ in
/-- And in the end. -/
theorem waiting_end (alike : Alike r r') (c : Correlation) :
    (r.run events).2.waiting c = (r'.run events').2.waiting c := by
  have same : events'.filterMap (told c) = events.filterMap (told c) := by
    rw [← filterMap_told, (ρ.kept c).filter_eq, filterMap_told]
  rw [waiting_run_from, waiting_run_from, same, alike.waiting c]

end

/-- What an operation answers that fixes no options: what its correlation makes it answer, if it is a completion. -/
theorem outcome_of_fixes? (r : Registry) (now : UInt64) {op : Operation} (h : fixes? op = none) :
    (r.apply now op).1 = op.answer (((ended? op).bind r.waiting).map (elapsed · now)) := by
  cases he : ended? op with
  | some c => exact r.outcome_of_ended now he
  | none =>
      cases op with
      | configure => cases h
      | recordLifetime | recordCallEnd | incrementExceptionExits => cases he
      | _ => rfl

/-- The outcome of an event is that of its operation after the events before it. -/
theorem getElem?_outcomes (r : Registry) (events : List Event) (i : Fin events.length) :
    (r.run events).1[i.val]? =
      some ((r.run (events.take i)).2.apply events[i].now events[i].operation).1 := by
  have outcome := r.outcome_of_run (events.take i) events[i] (events.drop (i + 1))
  rwa [Fin.getElem_fin, List.getElem_cons_drop, List.take_append_drop,
    List.length_take_of_le i.isLt.le] at outcome

theorem answered_eq (r : Registry) (events : List Event) :
    r.answered events = (List.finRange events.length).map fun i : Fin events.length =>
      (events[i].operation,
        ((r.run (events.take i)).2.apply events[i].now events[i].operation).1) := by
  refine List.ext_getElem (by simp [answered, length_outcomes]) fun n h _ => ?_
  have inside : n < events.length := by simpa [answered, length_outcomes] using h
  obtain ⟨_, outcome⟩ := List.getElem?_eq_some_iff.mp (r.getElem?_outcomes events ⟨n, inside⟩)
  simp only [answered, List.getElem_zip, List.getElem_map, List.getElem_finRange, Fin.getElem_fin,
    Fin.cast_mk]
  exact Prod.ext rfl outcome

section
variable {events events' : List Event} (ρ : Reordering events events') {r r' : Registry}
  (alike : Alike r r') (recording : ∀ e ∈ events, fixes? e.operation = none)
include ρ alike recording

/-- **Outcomes.**  An event has the same outcome in both histories. -/
theorem outcome_of_kept (i : Fin events.length) :
    ((r'.run (events'.take (ρ.place i))).2.apply events'[ρ.place i].now
        events'[ρ.place i].operation).1 =
      ((r.run (events.take i)).2.apply events[i].now events[i].operation).1 := by
  have fixes := recording events[i] (List.getElem_mem _)
  -- what is answered depends on the registry only by the start that waits for a completion
  rw [ρ.same i, outcome_of_fixes? _ _ fixes, outcome_of_fixes? _ _ fixes]
  cases he : ended? events[i].operation with
  | none => rfl
  | some c =>
      have waits := waiting_take ρ alike i (decide_eq_true (correlation?_of_ended he))
      rw [Option.bind_some, Option.bind_some, waits]

/-- So both histories are the same operations with the same outcomes. -/
theorem answered_perm : (r'.answered events').Perm (r.answered events) := by
  rw [answered_eq, answered_eq]
  exact perm_map_finRange ρ.place fun i =>
    Prod.ext (congrArg (·.operation) (ρ.same i)) (outcome_of_kept ρ alike recording i)

/-- **What is left.**  Both histories leave registries that hold the same. -/
theorem alike_run : Alike (r.run events).2 (r'.run events').2 := by
  have recording' : ∀ e ∈ events', fixes? e.operation = none :=
    fun e he => recording e (ρ.perm.mem_iff.mp he)
  -- what the tables hold for a key is a sum over operations with their outcomes
  have told := (answered_perm ρ alike recording).symm
  have tally (t : Tally) (k : Key) (h : (t.counters r).get? k = (t.counters r').get? k) :
      (t.counters (r.run events).2).get? k = (t.counters (r'.run events').2).get? k := by
    rw [t.counters_run, t.counters_run, Counters.addAll_eq, Counters.addAll_eq]
    exact Table.get?_addAll_of_perm (told.filterMap _) h
  have series (s : Series) (k : Key) (h : (s.timings r).get? k = (s.timings r').get? k) :
      (s.timings (r.run events).2).get? k = (s.timings (r'.run events').2).get? k := by
    rw [s.timings_run r recording, s.timings_run r' recording', Timings.observeAll_eq,
      Timings.observeAll_eq, alike.options]
    exact Table.get?_addAll_of_perm ((told.filterMap _).map _) h
  exact
    { options := by
        rw [options_run_of_recording recording, options_run_of_recording recording', alike.options]
      instances := fun k => tally instanceTally k (alike.instances k)
      finished := fun k => tally finishedTally k (alike.finished k)
      lifetimes := fun k => series lifetimeSeries k (alike.lifetimes k)
      calls := fun k => tally callTally k (alike.calls k)
      execTimes := fun k => series execTimeSeries k (alike.execTimes k)
      exceptionExits := fun k => tally exitTally k (alike.exceptionExits k)
      waiting := waiting_end ρ alike }

end

/-- **Order.**  On registries that hold the same, as two new ones with the same options do, let the operations of two
histories be the same up to their order, where those of each correlation keep their order and none fixes options.  Then
every operation has the same outcome in both, and everything that can be read in the end is the same. -/
theorem outcomes_and_reads_of_reordering {events events' : List Event} (ρ : Reordering events events')
    (recording : ∀ e ∈ events, fixes? e.operation = none) {r r' : Registry} (alike : Alike r r') :
    (∀ i, ∃ outcome, (r.run events).1[i.val]? = some outcome ∧
        (r'.run events').1[(ρ.place i).val]? = some outcome) ∧
      SameReads (r.run events).2 (r'.run events').2 := by
  refine ⟨fun i => ⟨_, r.getElem?_outcomes events i, ?_⟩, (alike_run ρ alike recording).sameReads⟩
  rw [r'.getElem?_outcomes events' (ρ.place i), outcome_of_kept ρ alike recording i]

/-- Two clients, one that makes an object and one that calls: each goes before the other, once in making and once in
ending. -/
theorem outcomes_and_reads_of_two_clients :
    let k := Key.operation "A" "f"
    let events : List Event := [⟨10, .recordCreation k 1⟩, ⟨11, .recordCallStart k 1⟩,
      ⟨15, .recordLifetime k 1⟩, ⟨20, .incrementExceptionExits k 1⟩]
    let events' : List Event := [⟨11, .recordCallStart k 1⟩, ⟨10, .recordCreation k 1⟩,
      ⟨20, .incrementExceptionExits k 1⟩, ⟨15, .recordLifetime k 1⟩]
    let r : Registry := { fixed := some {} }
    (∀ e ∈ events, fixes? e.operation = none) ∧ Alike empty r ∧
      ∃ ρ : Reordering events events',
        (∀ i, ∃ outcome, (empty.run events).1[i.val]? = some outcome ∧
          (r.run events').1[(ρ.place i).val]? = some outcome) ∧
        SameReads (empty.run events).2 (r.run events').2 := by
  intro k events events' r
  have recording : ∀ e ∈ events, fixes? e.operation = none := by decide
  have alike : Alike empty r := alike_new rfl
  let places : Fin 4 ≃ Fin 4 := ⟨(· ^^^ 1), (· ^^^ 1), by decide, by decide⟩
  have ordered : ∀ i j : Fin 4, i < j → (correlation? events[i].operation).isSome →
      correlation? events[i].operation = correlation? events[j].operation → places i < places j := by
    decide
  let ρ : Reordering events events' :=
    { place := places
      same := by decide
      kept := fun c i j hij hi hj => ordered i j hij (by rw [of_decide_eq_true hi]; rfl)
        ((of_decide_eq_true hi).trans (of_decide_eq_true hj).symm) }
  exact ⟨recording, alike, ρ, outcomes_and_reads_of_reordering ρ recording alike⟩

end Metering.Registry
