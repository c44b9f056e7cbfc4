import Metering.Probe.Basic
import Metering.Proofs.Compiler.Output

/-!
# Proofs — Compiler — Points

What a compiled set has at a point: the registration if it is there, then what the rules of the point's entity have
there if some target has this entity, then what the rules of the point's target have there if it is one of the targets
(`actionsAt_output`).  An entity's block is emitted once and a target is listed once, so nothing stands there twice;
and the block of an entity comes before those of its targets.
-/

namespace Metering

/-- The actions of a set at a point, in the order of the set. -/
def BindingSet.actionsAt (set : BindingSet) (point : Point) : List Action :=
  (set.bindingsAt point).map (·.action)

namespace Compiler
open History

/-! ### Targets are listed once -/

/-- The targets of readable lines write these lines. -/
theorem map_text_targets {lines : List String} (h : Readable lines) :
    (targets lines).map Target.text = retained lines := by
  have back : ∀ {xs : List String} {ts : List Target}, xs.map Target.parse = ts.map .ok →
      ts.map Target.text = xs := by
    intro xs
    induction xs with
    | nil =>
        intro ts hx
        rw [List.map_nil, eq_comm, List.map_eq_nil_iff] at hx
        rw [hx, List.map_nil]
    | cons x xs ih =>
        intro ts hx
        obtain ⟨t, ts, rfl, ht, hts⟩ := List.map_eq_cons_iff.mp hx.symm
        rw [List.map_cons, Target.text_of_parse ht.symm, ih hts.symm]
  exact back h

theorem nodup_targets {lines : List String} (h : Readable lines) : (targets lines).Nodup := by
  refine List.Nodup.of_map Target.text ?_
  rw [map_text_targets h]
  exact nodup_eraseDups _

/-! ### Drafts at a point -/

def Draft.point (d : Draft) : Point := ⟨d.target, d.phase⟩

/-- The actions of drafts at a point. -/
def draftedAt (point : Point) (ds : List Draft) : List Action :=
  (ds.filter fun d => d.point = point).map (·.action)

theorem draftedAt_append (point : Point) (ds es : List Draft) :
    draftedAt point (ds ++ es) = draftedAt point ds ++ draftedAt point es := by
  rw [draftedAt, List.filter_append, List.map_append, draftedAt, draftedAt]

/-- A block has at a point the actions of its wanted rules that are about the point. -/
theorem draftedAt_block (point : Point) (label : String) (rules : List Rule) :
    draftedAt point (block label rules) =
      (rules.filter fun r => r.wanted ∧ r.target = point.target ∧ r.phase = point.phase).map
        (·.action) := by
  obtain ⟨t, phase⟩ := point
  rw [draftedAt, block, List.filter_map, List.map_map, List.filter_filter]
  refine congrArg _ (List.filter_congr fun r _ => ?_)
  simp [Draft.point, Bool.and_comm]

/-- Nothing is drafted at a point where no rule has its target. -/
theorem draftedAt_block_eq_nil {point : Point} {label : String} {rules : List Rule}
    (h : ∀ r ∈ rules, r.target ≠ point.target) : draftedAt point (block label rules) = [] := by
  rw [draftedAt_block, List.map_eq_nil_iff, List.filter_eq_nil_iff]
  intro r hr about
  exact h r hr (of_decide_eq_true about).2.1

theorem draftedAt_entityBlock_of_ne {point : Point} {entity : String}
    (h : entity ≠ point.target.entity) (f : Features) (l : Lifecycle) :
    draftedAt point (entityBlock f l entity) = [] := by
  apply draftedAt_block_eq_nil
  intro r hr e
  have : r.target.entity = entity := by
    simp only [entityRules, List.mem_cons, List.not_mem_nil, or_false] at hr
    rcases hr with rfl | rfl | rfl | rfl | rfl | rfl <;> rfl
  exact h (this ▸ congrArg Target.entity e)

theorem draftedAt_operationBlock_of_ne {point : Point} {t : Target} (h : t ≠ point.target)
    (f : Features) : draftedAt point (operationBlock f t) = [] := by
  apply draftedAt_block_eq_nil
  intro r hr e
  have : r.target = t := by
    simp only [operationRules, List.mem_cons, List.not_mem_nil, or_false] at hr
    rcases hr with rfl | rfl | rfl | rfl <;> rfl
  exact h (this ▸ e)

/-- What is emitted at a point for targets that are listed once: the part of the entity's block and the part of the
target's own block that are there. -/
theorem draftedAt_emitted (f : Features) (l : Lifecycle) (point : Point) {ts : List Target}
    (h : ts.Nodup) :
    draftedAt point (emitted f l ts) =
      (if point.target.entity ∈ ts.map (·.entity) then
        draftedAt point (entityBlock f l point.target.entity) else []) ++
      (if point.target ∈ ts then draftedAt point (operationBlock f point.target) else []) := by
  induction ts using List.reverseRecOn with
  | nil => rfl
  | append_singleton ts t ih =>
      obtain ⟨hts, -, apart⟩ := List.nodup_append.mp h
      have new : t ∉ ts := fun ht => apart t ht t (List.mem_singleton_self t) rfl
      rw [emitted_concat, draftedAt_append, ih hts, emittedFor, draftedAt_append, List.map_append,
        List.map_singleton]
      simp only [List.mem_append, List.mem_singleton]
      by_cases he : point.target.entity = t.entity
      · by_cases ht : point.target = t
        · subst ht
          by_cases known : point.target.entity ∈ ts.map (·.entity) <;>
            simp [known, new, draftedAt]
        · rw [draftedAt_operationBlock_of_ne (Ne.symm ht)]
          by_cases known : point.target.entity ∈ ts.map (·.entity)
          · simp [known, ← he, ht, draftedAt]
          · -- a target of the list has its entity in the list
            have absent : point.target ∉ ts := fun hm => known (List.mem_map_of_mem hm)
            simp [known, ← he, ht, absent]
      · have ht : point.target ≠ t := fun e => he (congrArg Target.entity e)
        rw [draftedAt_operationBlock_of_ne (Ne.symm ht)]
        have other : draftedAt point (if t.entity ∈ ts.map (·.entity) then [] else
            entityBlock f l t.entity) = [] := by
          split
          · rfl
          · exact draftedAt_entityBlock_of_ne (Ne.symm he) f l
        simp only [other, he, ht, or_false, List.append_nil]

/-! ### Actions at a point -/

/-- Positions and names do not matter for what stands at a point. -/
theorem actions_place (point : Point) (ds : List Draft) (order : Nat → UInt64) :
    ((ds.mapIdx fun i d => (⟨d.name, d.target, d.phase, d.action, order i⟩ : Binding)).filter
      fun b => b.point = point).map (·.action) = draftedAt point ds := by
  induction ds generalizing order with
  | nil => rfl
  | cons d ds ih =>
      have rest := ih fun i => order (i + 1)
      rw [List.mapIdx_cons, draftedAt, List.filter_cons, List.filter_cons]
      by_cases h : d.point = point
      · have hb : (⟨d.name, d.target, d.phase, d.action, order 0⟩ : Binding).point = point := h
        simp only [h, hb, decide_true, if_true, List.map_cons, rest, draftedAt]
      · have hb : (⟨d.name, d.target, d.phase, d.action, order 0⟩ : Binding).point ≠ point := h
        simp only [h, hb, decide_false, Bool.false_eq_true, if_false, rest, draftedAt]

/-- **What a compiled set has at a point.** -/
theorem actionsAt_output (f : Features) (r : Registration) (l : Lifecycle) {lines : List String}
    (h : Readable lines) (point : Point) :
    (output f r l lines).actionsAt point =
      draftedAt point [registrationRule f.normalized r] ++
      (if point.target.entity ∈ (targets lines).map (·.entity) then
        draftedAt point (entityBlock f.normalized l point.target.entity) else []) ++
      (if point.target ∈ targets lines then
        draftedAt point (operationBlock f.normalized point.target) else []) := by
  rw [BindingSet.actionsAt, BindingSet.bindingsAt, output, actions_place, List.append_assoc,
    ← draftedAt_emitted _ _ _ (nodup_targets h), ← draftedAt_append]
  rfl

end Compiler

end Metering
