import Metering.Proofs.Attribute.Lookup
import Metering.Proofs.Probe.Lives
import Metering.Proofs.Probe.Spans

/-!
# Proofs — Probe — Exposed

Which statistics are listed after firings of a compiled set.  Three things have to come together: the features request
the statistic (`Statistic.requested`), what its family is about occurred for the key (`Occurred`), and, for the optional
statistics, the registration point was entered.

* `occurrences_pos`: an event of a family happens in the registry when its features are wanted and it occurred among the
  firings; so a flag that is closed under what it needs never lets another family through.
* `isEnabled_iff`: the options in force enable of the optional statistics those that are requested.
* `lists_run_iff` puts both together.
-/

namespace Metering

namespace Statistic

/-- Whether the statistic is among the features. -/
def requested (f : Features) : Statistic → Bool
  | instancesCount | instancesLive => f.instanceCounts
  | lifetimeMinimum => f.lifetimeMin
  | lifetimeAverage => f.lifetimeAvg
  | lifetimeMaximum => f.lifetimeMax
  | calls => f.callCounts
  | execTimeMinimum => f.execTimeMin
  | execTimeAverage => f.execTimeAvg
  | execTimeMaximum => f.execTimeMax
  | exceptionExits => f.exceptionExits

/-- Whether the statistic is exposed only where the options say so. -/
def isOptional : Statistic → Bool
  | lifetimeMinimum | lifetimeMaximum | execTimeMinimum | execTimeMaximum | exceptionExits => true
  | _ => false

end Statistic

namespace Registry

/-- A statistic of a key is among the attributes. -/
def Lists (r : Registry) (k : Key) (s : Statistic) : Prop :=
  ∃ a ∈ r.attributes, a.key = k ∧ a.statistic = s

/-- What is listed is what is exposed. -/
theorem lists_iff {r : Registry} {k : Key} {s : Statistic} : r.Lists k s ↔ r.exposes k s = true := by
  refine ⟨?_, fun exposed => ⟨Attribute.of s k, mem_attributes_iff.mpr ⟨exposed, rfl⟩, rfl, rfl⟩⟩
  rintro ⟨a, mem, rfl, rfl⟩
  exact (mem_attributes_iff.mp mem).1

/-- And so are the names. -/
theorem nameOf_mem_attributeNames_iff {r : Registry} {k : Key} {s : Statistic} :
    s.nameOf k ∈ r.attributeNames ↔ r.Lists k s := by
  rw [lists_iff, mem_attributeNames_iff]
  refine ⟨?_, fun exposed => ⟨k, s, rfl, exposed⟩⟩
  rintro ⟨k', s', name, exposed⟩
  obtain ⟨rfl, rfl⟩ := Statistic.nameOf_injective name
  exact exposed

end Registry

namespace Probe
open Compiler History Registry

/-- Some firing completes a span of the key. -/
def Span.Completed (l : Lifecycle) (lines : List String) (s : Span) (fs : List Firing) (k : Key) :
    Prop :=
  ∃ before g after, fs = before ++ g :: after ∧ s.Completes l lines before g ∧ s.key g = k

/-- What makes a family have a key: a birth, a completed life, an entry, a completed call or an exceptional exit, of a
monitored entity or a listed target. -/
def Occurred (l : Lifecycle) (lines : List String) (fs : List Firing) (k : Key) : Category → Prop
  | .instances => ∃ g ∈ fs, g.point.target.entity ∈ entities lines ∧
      g.point.target.operation = l.constructor ∧ g.point.phase = .exit ∧ g.point.target.entityKey = k
  | .lifetimes => Span.life.Completed l lines fs k
  | .calls => ∃ g ∈ fs, g.point.target ∈ targets lines ∧ g.point.phase = .entry ∧
      g.point.target.operationKey = k
  | .execTimes => Span.call.Completed l lines fs k
  | .exceptionExits => ∃ g ∈ fs, g.point.target ∈ targets lines ∧ g.point.phase = .exceptionExit ∧
      g.point.target.operationKey = k

/-- Whether what makes a family have keys is wanted. -/
def wanted (f : Features) : Category → Bool
  | .instances => f.instanceCounts
  | .lifetimes => f.lifetimeAvg
  | .calls => f.callCounts
  | .execTimes => f.execTimeAvg
  | .exceptionExits => f.exceptionExits

/-! ### What is counted in what is asked for -/

theorem instanceBegun_entityAsks (f : Features) (l : Lifecycle) (t : Target) (inv : Invocation)
    (phase : Phase) :
    (entityAsks f l t inv phase).filterMap instanceBegun =
      (if f.instanceCounts ∧ t.operation = l.constructor ∧ phase = .exit then some t.entityKey
        else none).toList := by
  have ended : (entityAsks.ended f l t inv).filterMap instanceBegun = [] := by
    rw [entityAsks.ended]
    repeat' split
    all_goals rfl
  cases phase with
  | entry =>
      rw [entityAsks]
      split <;> simp [instanceBegun]
  | exit =>
      rw [entityAsks, List.filterMap_append, ended]
      by_cases hc : t.operation = l.constructor <;> cases f.instanceCounts <;>
        simp [hc, instanceBegun]
  | exceptionExit =>
      rw [entityAsks, ended]
      simp

theorem callCounted_operationAsks (f : Features) (t : Target) (inv : Invocation) (phase : Phase) :
    (operationAsks f t inv phase).filterMap callCounted =
      (if f.callCounts ∧ phase = .entry then some t.operationKey else none).toList := by
  cases phase <;> rw [operationAsks]
  · cases f.callCounts <;> cases f.execTimeAvg <;> rfl
  · cases f.execTimeAvg <;> simp [callCounted]
  · cases f.exceptionExits <;> simp [callCounted]

theorem exitCounted_operationAsks (f : Features) (t : Target) (inv : Invocation) (phase : Phase) :
    (operationAsks f t inv phase).filterMap exitCounted =
      (if f.exceptionExits ∧ phase = .exceptionExit then some t.operationKey else none).toList := by
  cases phase <;> rw [operationAsks]
  · cases f.callCounts <;> cases f.execTimeAvg <;> simp [exitCounted]
  · cases f.execTimeAvg <;> simp [exitCounted]
  · cases f.exceptionExits <;> simp [exitCounted]

/-- The rules of an entity count neither calls nor exceptional exits. -/
theorem counted_entityAsks {f : Features} {l : Lifecycle} {t : Target} {inv : Invocation}
    {phase : Phase} {op : Operation} (h : op ∈ entityAsks f l t inv phase) :
    callCounted op = none ∧ exitCounted op = none := by
  have ended {op : Operation} (h : op ∈ entityAsks.ended f l t inv) :
      callCounted op = none ∧ exitCounted op = none := by
    unfold entityAsks.ended at h
    grind [callCounted, exitCounted]
  cases phase with
  | entry =>
      rw [entityAsks] at h
      grind [callCounted, exitCounted]
  | exit =>
      rw [entityAsks, List.mem_append] at h
      grind [callCounted, exitCounted]
  | exceptionExit => exact ended h

/-! ### What is counted in a history -/

variable {f : Features} {r : Registration} {l : Lifecycle} {lines : List String} {registry : Nat}

/-- Events of a kind that firings ask for somewhere, where it is wanted, happen under a key when one fires there. -/
theorem countP_events_pos (h : Readable lines) (valid : ObjectName.validate r.objectName = .ok ())
    {tell : Operation → Option Key} (quiet : ∀ options, tell (.configure options) = none)
    {want : Bool} {here : Firing → Prop} [DecidablePred here] {key : Firing → Key}
    (asks : ∀ g, ((Probe.new (output f r l lines) registry).asked g).filterMap tell =
      (if want ∧ here g then some (key g) else none).toList) (fs : List Firing) (k : Key) :
    0 < (fs.flatMap (Probe.new (output f r l lines) registry).events).countP
        (fun e => tell e.operation = some k) ↔
      want = true ∧ ∃ g ∈ fs, here g ∧ key g = k := by
  have step (g : Firing) : ((Probe.new (output f r l lines) registry).events g).filterMap
      (fun e => tell e.operation) = (if want ∧ here g then some (key g) else none).toList := by
    rw [← asks, ← filterMap_operation_events h valid quiet, List.filterMap_map]
    rfl
  rw [countP_eq_some fun e : Event => tell e.operation, filterMap_flatMap step, List.count_pos_iff,
    List.mem_filterMap]
  simp only [Option.ite_none_right_eq_some, Option.some.injEq, and_assoc]
  refine ⟨?_, ?_⟩
  · rintro ⟨g, hg, wants, there⟩
    exact ⟨wants, g, hg, there⟩
  · rintro ⟨wants, g, hg, there⟩
    exact ⟨g, hg, wants, there⟩

/-- A birth counts an instance. -/
theorem filterMap_instanceBegun_asked (h : Readable lines) (g : Firing) :
    ((Probe.new (output f r l lines) registry).asked g).filterMap instanceBegun =
      (if f.normalized.instanceCounts ∧ g.point.target.entity ∈ entities lines ∧
          g.point.target.operation = l.constructor ∧ g.point.phase = .exit then
        some g.point.target.entityKey else none).toList := by
  rw [filterMap_asked_entity h g fun _ hop => (lives_operationAsks hop).2.2, instanceBegun_entityAsks]
  split <;> simp [*]

/-- An entry counts a call. -/
theorem filterMap_callCounted_asked (h : Readable lines) (g : Firing) :
    ((Probe.new (output f r l lines) registry).asked g).filterMap callCounted =
      (if f.normalized.callCounts ∧ g.point.target ∈ targets lines ∧ g.point.phase = .entry then
        some g.point.target.operationKey else none).toList := by
  rw [filterMap_asked_target h g fun _ hop => (counted_entityAsks hop).1, callCounted_operationAsks]
  split <;> simp [*]

/-- An exceptional exit is counted. -/
theorem filterMap_exitCounted_asked (h : Readable lines) (g : Firing) :
    ((Probe.new (output f r l lines) registry).asked g).filterMap exitCounted =
      (if f.normalized.exceptionExits ∧ g.point.target ∈ targets lines ∧
          g.point.phase = .exceptionExit then
        some g.point.target.operationKey else none).toList := by
  rw [filterMap_asked_target h g fun _ hop => (counted_entityAsks hop).2, exitCounted_operationAsks]
  split <;> simp [*]

/-- Times are taken in for a key when its spans are timed and one is completed. -/
theorem length_taken_pos (h : Readable lines) (valid : ObjectName.validate r.objectName = .ok ())
    (s : Span) (fs : List Firing) (k : Key) :
    0 < (s.series.taken k
        (fs.flatMap (Probe.new (output f r l lines) registry).events)).length ↔
      s.timed f.normalized = true ∧ s.Completed l lines fs k := by
  rw [List.length_pos_iff_exists_mem]
  refine ⟨?_, ?_⟩
  · rintro ⟨x, hx⟩
    obtain ⟨before, g, after, split, timed, completes, key, -⟩ := completion_of_taken h valid hx
    exact ⟨timed, before, g, after, split, completes, key⟩
  · rintro ⟨timed, before, g, after, rfl, completes, rfl⟩
    exact taken_of_completion h valid timed completes

/-- **Occurrences.**  An event of a family happens for a key when the family is wanted and what it is about occurs. -/
theorem occurrences_pos (h : Readable lines) (valid : ObjectName.validate r.objectName = .ok ())
    (fs : List Firing) (k : Key) (category : Category) :
    0 < occurrences (fs.flatMap (Probe.new (output f r l lines) registry).events) k category ↔
      wanted f.normalized category = true ∧ Occurred l lines fs k category := by
  cases category with
  | instances =>
      simpa only [occurrences, wanted, Occurred, and_assoc] using
        countP_events_pos h valid (fun _ => rfl) (filterMap_instanceBegun_asked h) fs k
  | lifetimes => exact length_taken_pos h valid .life fs k
  | calls =>
      simpa only [occurrences, wanted, Occurred, and_assoc] using
        countP_events_pos h valid (fun _ => rfl) (filterMap_callCounted_asked h) fs k
  | execTimes => exact length_taken_pos h valid .call fs k
  | exceptionExits =>
      simpa only [occurrences, wanted, Occurred, and_assoc] using
        countP_events_pos h valid (fun _ => rfl) (filterMap_exitCounted_asked h) fs k

/-! ### What is exposed -/

/-- Features that are closed want the family of each statistic that they request. -/
theorem wanted_of_requested {f : Features} {s : Statistic} (h : s.requested f.normalized = true) :
    wanted f.normalized s.category = true := by
  cases s with
  | lifetimeMinimum | lifetimeMaximum | execTimeMinimum | execTimeMaximum =>
      -- an extremum needs the average, of the same family
      simp_all [Statistic.requested, Statistic.category, wanted, Features.normalized]
  | _ => exact h

/-- A statistic that is not optional is requested with its family. -/
theorem requested_eq_wanted {s : Statistic} (plain : s.isOptional = false) (f : Features) :
    s.requested f = wanted f s.category := by
  cases s <;> first | rfl | cases plain

/-- The options enable what is not optional, and once they are fixed what is requested of the rest. -/
theorem isEnabled_iff (f : Features) (s : Statistic) (fixed : Prop) [Decidable fixed] :
    s.isEnabled (if fixed then f.normalized.recordOptions else {}) = true ↔
      (s.isOptional = true → s.requested f.normalized = true ∧ fixed) := by
  rw [recordOptions_normalized]
  by_cases h : fixed <;> cases s <;>
    simp [h, Statistic.isEnabled, Statistic.isOptional, Statistic.requested]

/-- A registry exposes after firings what is requested and occurred, the optional statistics once the registration point
was entered. -/
theorem exposes_run (h : Readable lines) (valid : ObjectName.validate r.objectName = .ok ())
    (fs : List Firing) (k : Key) (s : Statistic) :
    (((Probe.new (output f r l lines) registry).run {} fs).registry registry).exposes k s = true ↔
      s.requested f.normalized = true ∧ Occurred l lines fs k s.category ∧
        (s.isOptional = true → ∃ g ∈ fs, g.point = registrationPoint r) := by
  have run : ((Probe.new (output f r l lines) registry).run {} fs).registry registry =
      (Registry.empty.run (fs.flatMap (Probe.new (output f r l lines) registry).events)).2 :=
    registry_run_new _ fs
  rw [run, exposes, Bool.and_eq_true, options_run, inForce_run h valid, isEnabled_iff,
    Registry.contains_run, decide_eq_true_iff, occurrences_pos h valid]
  refine ⟨?_, ?_⟩
  · rintro ⟨enabled, wanted, occurred⟩
    refine ⟨?_, occurred, fun optional => (enabled optional).2⟩
    cases optional : s.isOptional with
    | true => exact (enabled optional).1
    | false => rwa [requested_eq_wanted optional]
  · rintro ⟨requested, occurred, registered⟩
    exact ⟨fun optional => ⟨requested, registered optional⟩, wanted_of_requested requested, occurred⟩

/-- **What is exposed.**  A statistic of a key is listed after firings of a compiled set if and only if the features
request it, what its family is about occurred for the key, and, if the statistic is optional, the registration point was
entered; so nothing is listed that was not asked for or of what is not monitored.  The names listed are those of the
same statistics. -/
theorem lists_run_iff {set : BindingSet} (h : (Compiler.new f r l).compile lines = .ok set)
    (valid : ObjectName.validate r.objectName = .ok ()) (fs : List Firing) (k : Key)
    (s : Statistic) :
    let final := ((Probe.new set registry).run {} fs).registry registry
    (final.Lists k s ↔
        s.requested f.normalized = true ∧ Occurred l lines fs k s.category ∧
          (s.isOptional = true → ∃ g ∈ fs, g.point = registrationPoint r)) ∧
      (s.nameOf k ∈ final.attributeNames ↔ final.Lists k s) := by
  obtain ⟨readable, rfl⟩ := readable_of_compile h
  intro final
  exact ⟨lists_iff.trans (exposes_run readable valid fs k s), nameOf_mem_attributeNames_iff⟩

/-- A life that is over before the statistics are registered: its average is listed at once, the least time as soon as
the registration point was entered, and the instances never, since they were not requested. -/
theorem lists_one_life :
    let f : Features := { lifetimeMin := true }
    let r : Registration := ⟨"Helper", "Main", "main", "register", "app:type=Statistics"⟩
    let lines := ["A#f"]
    let k := Key.entity "A"
    let at_point (entity operation : String) (phase : Phase) : Firing :=
      ⟨⟨⟨entity, operation⟩, phase⟩, ⟨1, 7⟩, fun n => .ofNat n⟩
    let life := [at_point "A" "<init>" .entry, at_point "A" "<init>" .exit, at_point "A" "run" .exit]
    let final (fs : List Firing) := ((Probe.new (output f r {} lines) 0).run {} fs).registry 0
    let registered := life ++ [at_point "Main" "main" .entry]
    ((Compiler.new f r).compile lines = .ok (output f r {} lines) ∧
        ObjectName.validate r.objectName = .ok ()) ∧
      (final life).Lists k .lifetimeAverage ∧ ¬ (final life).Lists k .lifetimeMinimum ∧
        (final registered).Lists k .lifetimeMinimum ∧
        ¬ (final registered).Lists k .instancesCount := by
  intro f r lines k at_point life final registered
  have compiled : (Compiler.new f r).compile lines = .ok (output f r {} lines) :=
    compile_of_readable f r {} rfl
  have valid : ObjectName.validate r.objectName = .ok () := by decide +kernel
  have main (fs : List Firing) (s : Statistic) :=
    (@lists_run_iff f r {} lines 0 _ compiled valid fs k s).1
  have completes : Span.life.Completes {} lines (life.take 2) (at_point "A" "run" .exit) := by
    refine ⟨by decide +kernel, ?_⟩
    rw [Span.IsOpen]
    decide +kernel
  have entered : ¬ ∃ g ∈ life, g.point = registrationPoint r := by decide +kernel
  refine ⟨⟨compiled, valid⟩, ?_, ?_, ?_, ?_⟩
  · exact (main life .lifetimeAverage).mpr
      ⟨rfl, ⟨_, _, [], rfl, completes, rfl⟩, fun optional => by cases optional⟩
  · exact fun h => entered (((main life .lifetimeMinimum).mp h).2.2 rfl)
  · exact (main registered .lifetimeMinimum).mpr ⟨rfl, ⟨_, _, [_], rfl, completes, rfl⟩,
      fun _ => ⟨at_point "Main" "main" .entry, by simp [registered], rfl⟩⟩
  · exact fun h => Bool.false_ne_true ((main registered .instancesCount).mp h).1

end Probe

end Metering
