import Metering.Proofs.Compiler.Points

/-!
# Proofs — Compiler — Kinds

The kinds of actions that a compiled set has at a point.  Each phase has its own kinds, and where lives are timed their
ends take the place of the plain ends of instances (`kindsAt`).  What stands at a point are some of these kinds, each at
most once, in their order (`kinds_actionsAt_sublist`): whatever targets are monitored, whether they are the operations of
the lifecycle or the one that registers, and whether the lifecycle begins and ends with one operation.

So no two bindings have point and kind in common (`pairwise_output`), and a set has no plain ends of instances besides
timed ones (`countOf_output`).
-/

namespace Metering.Compiler
open Metering.Action (Kind)

/-! ### The kinds of a phase -/

/-- The kind by which instances end, by whether lives are timed. -/
def endKind (timed : Bool) : Kind :=
  if timed then .recordInstanceLifetime else .decrementLiveInstanceCount

/-- The kinds of an entity's rules at a phase. -/
def entityKinds (timed : Bool) : Phase → List Kind
  | .entry => [.recordCreationTime]
  | .exit => [.incrementInstanceCount, endKind timed]
  | .exceptionExit => [endKind timed]

/-- The kinds of a target's rules at a phase. -/
def operationKinds : Phase → List Kind
  | .entry => [.incrementCallCount, .recordCallStart]
  | .exit => [.recordCallEnd]
  | .exceptionExit => [.incrementExceptionExit]

/-- The kinds that a set may have at a phase, in its order. -/
def kindsAt (timed : Bool) (phase : Phase) : List Kind :=
  (if phase = .entry then [.register] else []) ++ (entityKinds timed phase ++ operationKinds phase)

theorem nodup_kindsAt (timed : Bool) (phase : Phase) : (kindsAt timed phase).Nodup := by
  cases timed <;> cases phase <;> decide

/-- The kinds of the wanted rules at a phase. -/
def kindsOf (rules : List Rule) (phase : Phase) : List Kind :=
  (rules.filter fun r => r.wanted ∧ r.phase = phase).map (·.action.kind)

/-- A block has at a point no more kinds than its rules have at the phase. -/
theorem kinds_block_sublist (point : Point) (label : String) (rules : List Rule) :
    ((draftedAt point (block label rules)).map Action.kind).Sublist (kindsOf rules point.phase) := by
  rw [draftedAt_block, List.map_map, kindsOf]
  refine List.Sublist.map _ (List.monotone_filter_right rules fun r => ?_)
  simp only [decide_eq_true_eq]
  exact fun ⟨wanted, _, phase⟩ => ⟨wanted, phase⟩

theorem kindsOf_entityRules_sublist (f : Features) (l : Lifecycle) (entity : String) (phase : Phase) :
    (kindsOf (entityRules f l entity) phase).Sublist (entityKinds f.lifetimeAvg phase) := by
  cases phase <;> cases ht : f.lifetimeAvg <;> cases hc : f.instanceCounts <;>
    simp [kindsOf, entityRules, entityKinds, endKind, Action.kind, ht, hc]

theorem kindsOf_operationRules_sublist (f : Features) (t : Target) (phase : Phase) :
    (kindsOf (operationRules f t) phase).Sublist (operationKinds phase) := by
  cases phase with
  | entry =>
      cases hc : f.callCounts <;> cases ht : f.execTimeAvg <;>
        simp [kindsOf, operationRules, operationKinds, Action.kind, hc, ht]
  | exit => cases ht : f.execTimeAvg <;> simp [kindsOf, operationRules, operationKinds, Action.kind, ht]
  | exceptionExit =>
      cases he : f.exceptionExits <;> simp [kindsOf, operationRules, operationKinds, Action.kind, he]

theorem kinds_registration_sublist (f : Features) (r : Registration) (point : Point) :
    ((draftedAt point [registrationRule f r]).map Action.kind).Sublist
      (if point.phase = .entry then [.register] else []) := by
  rw [draftedAt, List.filter_cons]
  split
  · rename_i here
    have phase : Phase.entry = point.phase := congrArg Point.phase (of_decide_eq_true here)
    rw [if_pos phase.symm]
    exact List.Sublist.refl _
  · exact List.nil_sublist _

/-! ### The kinds of a set -/

section
variable {f : Features} {r : Registration} {l : Lifecycle} {lines : List String}

/-- **Kinds at a point.**  They are kinds of its phase, each at most once. -/
theorem kinds_actionsAt_sublist (h : Readable lines) (point : Point) :
    (((output f r l lines).actionsAt point).map Action.kind).Sublist
      (kindsAt f.normalized.lifetimeAvg point.phase) := by
  rw [actionsAt_output f r l h, List.map_append, List.map_append, List.append_assoc]
  refine (kinds_registration_sublist ..).append (List.Sublist.append ?_ ?_)
  · split
    · exact (kinds_block_sublist ..).trans (kindsOf_entityRules_sublist ..)
    · exact List.nil_sublist _
  · split
    · exact (kinds_block_sublist ..).trans (kindsOf_operationRules_sublist ..)
    · exact List.nil_sublist _

/-- Bindings of which no two at one point have a kind in common. -/
theorem pairwise_of_points {bs : List Binding}
    (h : ∀ point, (bs.filter fun b => b.point = point).Pairwise
      fun b c => b.action.kind ≠ c.action.kind) :
    bs.Pairwise fun b c =>
      ¬ (b.target = c.target ∧ b.phase = c.phase ∧ b.action.kind = c.action.kind) := by
  induction bs with
  | nil => exact .nil
  | cons b rest ih =>
      refine .cons (fun c hc => ?_) (ih fun point => (h point).sublist ?_)
      · rintro ⟨target, phase, kind⟩
        have there : c.point = b.point := by rw [Binding.point, Binding.point, target, phase]
        have here := h b.point
        rw [List.filter_cons, if_pos (decide_eq_true rfl), List.pairwise_cons] at here
        exact here.1 c (List.mem_filter.mpr ⟨hc, decide_eq_true there⟩) kind
      · exact (List.sublist_cons_self b rest).filter _

/-- **One of a kind.**  No two bindings have target, phase and kind in common. -/
theorem pairwise_output (h : Readable lines) :
    (output f r l lines).bindings.Pairwise fun b c =>
      ¬ (b.target = c.target ∧ b.phase = c.phase ∧ b.action.kind = c.action.kind) := by
  refine pairwise_of_points fun point => ?_
  have nodup := (nodup_kindsAt _ _).sublist (kinds_actionsAt_sublist (f := f) (r := r) (l := l) h point)
  rw [BindingSet.actionsAt, List.map_map] at nodup
  exact List.pairwise_map.mp nodup

/-- **One way to end.**  The other kind by which instances may end is not in a set. -/
theorem countOf_endKind (h : Readable lines) :
    (output f r l lines).countOf (endKind !f.normalized.lifetimeAvg) = 0 := by
  have absent (timed : Bool) (phase : Phase) : endKind (!timed) ∉ kindsAt timed phase := by
    cases timed <;> cases phase <;> decide
  refine List.countP_eq_zero.mpr fun b hb kind => absent f.normalized.lifetimeAvg b.phase ?_
  refine (kinds_actionsAt_sublist (r := r) (l := l) h b.point).subset ?_
  rw [BindingSet.actionsAt, List.map_map]
  exact List.mem_map.mpr ⟨b, List.mem_filter.mpr ⟨hb, decide_eq_true rfl⟩, of_decide_eq_true kind⟩

end

end Metering.Compiler
