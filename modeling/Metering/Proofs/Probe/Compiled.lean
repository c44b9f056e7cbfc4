import Metering.Proofs.Compiler.Points
import Metering.Proofs.Probe.Asked

/-!
# Proofs — Probe — Compiled

What a firing asks of the registry when the probe has a compiled set (`asked_output`): what the rules of its entity ask
for at this phase if the entity is monitored, then what the rules of its target ask for if the target is.  The
registration asks for nothing.
-/

namespace Metering

namespace Compiler

/-- The entities of the targets that lines write. -/
def entities (lines : List String) : List String := (targets lines).map (·.entity)

/-- What the rules of an entity ask for when one of its operations is at a phase. -/
def entityAsks (f : Features) (l : Lifecycle) (t : Target) (inv : Invocation) :
    Phase → List Registry.Operation
  | .entry =>
      if t.operation = l.constructor ∧ f.lifetimeAvg then [.recordCreation t.entityKey inv.object]
      else []
  | .exit =>
      (if t.operation = l.constructor ∧ f.instanceCounts then [.incrementInstances t.entityKey]
        else []) ++ ended
  | .exceptionExit => ended
where
  /-- At an end of the completion. -/
  ended : List Registry.Operation :=
    if t.operation = l.completion then
      if f.lifetimeAvg then [.recordLifetime t.entityKey inv.object]
      else if f.instanceCounts then [.decrementLive t.entityKey] else []
    else []

/-- What the rules of a target ask for when it is at a phase. -/
def operationAsks (f : Features) (t : Target) (inv : Invocation) : Phase → List Registry.Operation
  | .entry =>
      (if f.callCounts then [.incrementCalls t.operationKey] else []) ++
        if f.execTimeAvg then [.recordCallStart t.operationKey inv.call] else []
  | .exit => if f.execTimeAvg then [.recordCallEnd t.operationKey inv.call] else []
  | .exceptionExit =>
      if f.exceptionExits then [.incrementExceptionExits t.operationKey inv.call] else []

/-- A block asks at a point for what its rules ask for that are wanted and are about the point. -/
theorem filterMap_block (t : Target) (phase : Phase) (inv : Invocation) (label : String)
    (rules : List Rule) :
    (draftedAt ⟨t, phase⟩ (block label rules)).filterMap (Probe.operation t inv) =
      rules.flatMap fun r =>
        if r.wanted ∧ r.target = t ∧ r.phase = phase then (Probe.operation t inv r.action).toList
        else [] := by
  rw [draftedAt_block, List.filterMap_map, List.filterMap_filter, List.filterMap_eq_flatMap_toList]
  refine List.flatMap_congr fun r _ => ?_
  simp only [decide_eq_true_eq, Function.comp_apply]
  split <;> rfl

theorem filterMap_entityBlock (f : Features) (l : Lifecycle) (t : Target) (phase : Phase)
    (inv : Invocation) :
    (draftedAt ⟨t, phase⟩ (entityBlock f l t.entity)).filterMap (Probe.operation t inv) =
      entityAsks f l t inv phase := by
  have target (op : String) : (⟨t.entity, op⟩ : Target) = t ↔ t.operation = op :=
    ⟨fun h => (congrArg Target.operation h).symm, fun h => h ▸ rfl⟩
  rw [entityBlock, filterMap_block]
  cases phase with
  | entry => simp [entityRules, entityAsks, target, Probe.operation, and_comm]
  | exit | exceptionExit =>
      cases hl : f.lifetimeAvg <;> cases hc : f.instanceCounts <;>
        simp [entityRules, entityAsks, entityAsks.ended, target, Probe.operation, hl, hc]

theorem filterMap_operationBlock (f : Features) (t : Target) (phase : Phase) (inv : Invocation) :
    (draftedAt ⟨t, phase⟩ (operationBlock f t)).filterMap (Probe.operation t inv) =
      operationAsks f t inv phase := by
  rw [operationBlock, filterMap_block]
  cases phase <;> simp [operationRules, operationAsks, Probe.operation]

end Compiler

namespace Probe
open Compiler

/-- A firing asks for what the actions of the set at its point ask for. -/
theorem asked_new (set : BindingSet) (registry : Nat) (f : Firing) :
    (Probe.new set registry).asked f =
      (set.actionsAt f.point).filterMap (operation f.point.target f.invocation) := by
  rw [asked, askedBy, bindingsAt_new, BindingSet.actionsAt, List.filterMap_map]
  refine List.filterMap_congr fun b hb => ?_
  have there : b.point = f.point := of_decide_eq_true (List.mem_filter.mp hb).2
  rw [← there]
  rfl

/-- **What a firing asks for.** -/
theorem asked_output (f : Features) (r : Registration) (l : Lifecycle) {lines : List String}
    (h : Readable lines) (registry : Nat) (firing : Firing) :
    (Probe.new (output f r l lines) registry).asked firing =
      (if firing.point.target.entity ∈ entities lines then
        entityAsks f.normalized l firing.point.target firing.invocation firing.point.phase
        else []) ++
      (if firing.point.target ∈ targets lines then
        operationAsks f.normalized firing.point.target firing.invocation firing.point.phase
        else []) := by
  obtain ⟨⟨t, phase⟩, inv, clock⟩ := firing
  have registration : (draftedAt ⟨t, phase⟩ [registrationRule f.normalized r]).filterMap
      (operation t inv) = [] := by
    rw [draftedAt, List.filter_cons]
    split <;> rfl
  rw [asked_new, actionsAt_output f r l h, List.filterMap_append, List.filterMap_append,
    registration, List.nil_append, ← filterMap_entityBlock, ← filterMap_operationBlock, entities]
  split <;> split <;> rfl

section
variable {β : Type} {f : Features} {r : Registration} {l : Lifecycle} {lines : List String}
  {registry : Nat}

/-- What `g` sees of what a firing asks for, where it sees nothing of the rules of targets. -/
theorem filterMap_asked_entity (h : Readable lines) (firing : Firing)
    {g : Registry.Operation → Option β}
    (silent : ∀ op ∈ operationAsks f.normalized firing.point.target firing.invocation
      firing.point.phase, g op = none) :
    ((Probe.new (output f r l lines) registry).asked firing).filterMap g =
      if firing.point.target.entity ∈ entities lines then
        (entityAsks f.normalized l firing.point.target firing.invocation
          firing.point.phase).filterMap g
      else [] := by
  rw [asked_output f r l h, List.filterMap_append]
  split <;> split <;> simp [List.filterMap_eq_nil_iff.mpr silent]

/-- And where it sees nothing of those of entities. -/
theorem filterMap_asked_target (h : Readable lines) (firing : Firing)
    {g : Registry.Operation → Option β}
    (silent : ∀ op ∈ entityAsks f.normalized l firing.point.target firing.invocation
      firing.point.phase, g op = none) :
    ((Probe.new (output f r l lines) registry).asked firing).filterMap g =
      if firing.point.target ∈ targets lines then
        (operationAsks f.normalized firing.point.target firing.invocation
          firing.point.phase).filterMap g
      else [] := by
  rw [asked_output f r l h, List.filterMap_append]
  split <;> split <;> simp [List.filterMap_eq_nil_iff.mpr silent]

end

end Probe

end Metering
