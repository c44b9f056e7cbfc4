import Metering.Proofs.Probe.Compiled
import Metering.Proofs.Probe.Events

/-!
# Proofs — Probe — Registration

The events of a compiled set.  A firing at the registration point tries to fix the options, and each firing does what it
asks for (`map_operation_events`).  Nothing else fixes options, so those of the features are in force as soon as
the registration point was entered, and none before (`inForce_run`).
-/

namespace Metering

namespace Compiler
open History

/-- The point at which the statistics are registered. -/
def registrationPoint (r : Registration) : Point := ⟨⟨r.entity, r.operation⟩, .entry⟩

/-- What is drafted by a block comes of one of its rules. -/
theorem exists_rule_of_mem_draftedAt {point : Point} {label : String} {rules : List Rule} {a : Action}
    (h : a ∈ draftedAt point (block label rules)) : ∃ rule ∈ rules, rule.action = a := by
  rw [draftedAt_block] at h
  obtain ⟨rule, hr, rfl⟩ := List.mem_map.mp h
  exact ⟨rule, (List.mem_filter.mp hr).1, rfl⟩

/-- The registration is drafted at its point alone. -/
theorem filterMap_registration {β : Type} (f : Features) (r : Registration) (point : Point)
    (g : Action → Option β) :
    (draftedAt point [registrationRule f r]).filterMap g =
      if point = registrationPoint r then (g (registrationRule f r).action).toList else [] := by
  rw [draftedAt, List.filter_cons]
  by_cases here : point = registrationPoint r
  · have there : (registrationRule f r).point = point := here.symm
    rw [if_pos (decide_eq_true there), if_pos here]
    exact filterMap_toList (some (registrationRule f r).action) g
  · have apart : (registrationRule f r).point ≠ point := Ne.symm here
    rw [if_neg (by simpa using apart), if_neg here]
    rfl

end Compiler

namespace Probe
open Compiler History Registry

variable {f : Features} {r : Registration} {l : Lifecycle} {lines : List String} {registry : Nat}

/-! ### The events of a compiled set -/

/-- The operations of events are what the bindings ask for. -/
theorem map_operation_eventsOf (inv : Invocation) (clock : Nat → UInt64) (bs : List Binding) :
    (eventsOf inv clock bs).map (·.operation) = bs.filterMap fun b => asks b.target inv b.action := by
  induction bs generalizing clock with
  | nil => rfl
  | cons b rest ih =>
      rw [eventsOf, List.map_append, ih, List.filterMap_cons]
      cases asks b.target inv b.action <;> rfl

/-- What the rules of entities and targets want at a point are operations. -/
theorem isSome_operation_of_mem {point : Point} {inv : Invocation} {a : Action}
    (h : a ∈ (if point.target.entity ∈ entities lines then
        draftedAt point (entityBlock f l point.target.entity) else []) ++
      (if point.target ∈ targets lines then
        draftedAt point (operationBlock f point.target) else [])) :
    (operation point.target inv a).isSome = true := by
  rcases List.mem_append.mp h with h | h
  · split at h
    · obtain ⟨rule, hr, rfl⟩ := exists_rule_of_mem_draftedAt h
      simp only [entityRules, List.mem_cons, List.not_mem_nil, or_false] at hr
      rcases hr with rfl | rfl | rfl | rfl | rfl | rfl <;> rfl
    · cases h
  · split at h
    · obtain ⟨rule, hr, rfl⟩ := exists_rule_of_mem_draftedAt h
      simp only [operationRules, List.mem_cons, List.not_mem_nil, or_false] at hr
      rcases hr with rfl | rfl | rfl | rfl <;> rfl
    · cases h

/-- **The operations of a firing.**  At the registration point it tries to fix the options; then come the operations
that it asks for. -/
theorem map_operation_events (h : Readable lines)
    (valid : ObjectName.validate r.objectName = .ok ()) (g : Firing) :
    ((Probe.new (output f r l lines) registry).events g).map (·.operation) =
      (if g.point = registrationPoint r then [.configure f.normalized.recordOptions] else []) ++
        (Probe.new (output f r l lines) registry).asked g := by
  have actions : (((Probe.new (output f r l lines) registry).bindingsAt g.point).filterMap
      fun b => asks b.target g.invocation b.action) =
      ((output f r l lines).actionsAt g.point).filterMap (asks g.point.target g.invocation) := by
    rw [bindingsAt_new, BindingSet.actionsAt, List.filterMap_map]
    refine List.filterMap_congr fun b hb => ?_
    have there : b.point = g.point := of_decide_eq_true (List.mem_filter.mp hb).2
    rw [← there]
    rfl
  have registers : asks g.point.target g.invocation (registrationRule f.normalized r).action =
      some (.configure f.normalized.recordOptions) := by
    rw [recordOptions_normalized]
    exact asks_register valid _ _ _ _
  have silent : (draftedAt g.point [registrationRule f.normalized r]).filterMap
      (operation g.point.target g.invocation) = [] := by
    rw [filterMap_registration]
    exact ite_self _
  obtain ⟨wanted, split, operations⟩ : ∃ wanted,
      (output f r l lines).actionsAt g.point =
        draftedAt g.point [registrationRule f.normalized r] ++ wanted ∧
      ∀ a ∈ wanted, (operation g.point.target g.invocation a).isSome = true :=
    ⟨_, (actionsAt_output f r l h g.point).trans (List.append_assoc _ _ _),
      fun _ => isSome_operation_of_mem⟩
  have same : wanted.filterMap (asks g.point.target g.invocation) =
      wanted.filterMap (operation g.point.target g.invocation) :=
    List.filterMap_congr fun a ha => by
      obtain ⟨op, hop⟩ := Option.isSome_iff_exists.mp (operations a ha)
      rw [hop, asks_of_operation hop]
  rw [events, map_operation_eventsOf, actions, asked_new, split, List.filterMap_append,
    List.filterMap_append, filterMap_registration, registers, silent, List.nil_append, same]
  rfl

/-- What `tell` sees of the operations of a firing, where it sees nothing of the registration. -/
theorem filterMap_operation_events {β : Type} (h : Readable lines)
    (valid : ObjectName.validate r.objectName = .ok ()) {tell : Operation → Option β}
    (quiet : ∀ options, tell (.configure options) = none) (g : Firing) :
    (((Probe.new (output f r l lines) registry).events g).map (·.operation)).filterMap tell =
      ((Probe.new (output f r l lines) registry).asked g).filterMap tell := by
  rw [map_operation_events h valid, List.filterMap_append]
  split
  · rw [List.filterMap_cons_none (quiet _)]
    rfl
  · rfl

/-! ### The options in force -/

/-- The registration alone fixes options, and those of the features. -/
theorem configure_mem_events (h : Readable lines)
    (valid : ObjectName.validate r.objectName = .ok ()) {g : Firing} {options : RecordOptions} :
    .configure options ∈
        ((Probe.new (output f r l lines) registry).events g).map (·.operation) ↔
      g.point = registrationPoint r ∧ options = f.normalized.recordOptions := by
  have asked : .configure options ∉ (Probe.new (output f r l lines) registry).asked g := by
    intro mem
    obtain ⟨b, -, hb⟩ := List.mem_filterMap.mp mem
    cases hc : b.action <;> rw [hc] at hb <;> cases hb
  rw [map_operation_events h valid, List.mem_append, or_iff_left asked]
  split <;> rename_i here <;> simp [here]

/-- The options in force after some of the events. -/
theorem inForce_events (h : Readable lines) (valid : ObjectName.validate r.objectName = .ok ())
    {events : List Event}
    (sub : ∀ e ∈ events, ∃ g, e ∈ (Probe.new (output f r l lines) registry).events g) :
    inForce events = if .configure f.normalized.recordOptions ∈ events.map (·.operation) then
      f.normalized.recordOptions else {} := by
  refine inForce_eq fun options mem => ?_
  obtain ⟨e, he, ho⟩ := List.mem_map.mp mem
  obtain ⟨g, hg⟩ := sub e he
  exact ((configure_mem_events h valid).mp (List.mem_map.mpr ⟨e, hg, ho⟩)).2

/-- Once the registration point was entered, those of the features are in force. -/
theorem inForce_of_entered (h : Readable lines)
    (valid : ObjectName.validate r.objectName = .ok ()) {events : List Event}
    (sub : ∀ e ∈ events, ∃ g, e ∈ (Probe.new (output f r l lines) registry).events g)
    {fs : List Firing}
    (before : fs.flatMap (Probe.new (output f r l lines) registry).events <+: events)
    (entered : ∃ g ∈ fs, g.point = registrationPoint r) :
    inForce events = f.normalized.recordOptions := by
  rw [inForce_events h valid sub, if_pos]
  obtain ⟨g, hg, there⟩ := entered
  refine (before.map _).subset ?_
  rw [List.map_flatMap]
  exact List.mem_flatMap.mpr ⟨g, hg, (configure_mem_events h valid).mpr ⟨there, rfl⟩⟩

/-- **Options.**  Those of the features are in force once the registration point was entered. -/
theorem inForce_run (h : Readable lines) (valid : ObjectName.validate r.objectName = .ok ())
    (fs : List Firing) :
    inForce (fs.flatMap (Probe.new (output f r l lines) registry).events) =
      if ∃ g ∈ fs, g.point = registrationPoint r then f.normalized.recordOptions else {} := by
  rw [inForce_events h valid fun e he => (List.mem_flatMap.mp he).imp fun _ => And.right]
  refine if_congr ?_ rfl rfl
  rw [List.map_flatMap, List.mem_flatMap]
  refine exists_congr fun g => and_congr_right fun _ => ?_
  rw [configure_mem_events h valid, and_iff_left rfl]

end Probe

end Metering
