import Metering.Proofs.Compiler.Points
import Metering.Text.Split

/-!
# Proofs — Compiler — Names

When the bindings of a set have different names.  A name is a title and what the binding is about, and no title has the
colon that ends it, so a name tells both (`named_inj`).  The titles are all different, an entity has one block and a
target has one block; so two bindings share a name only where two targets are written alike with a dash between their
parts (`label`), which does not tell where the entity ends (`nodup_names_iff`).
-/

namespace Metering.Compiler
open History

/-! ### Names -/

/-- The name of a binding with a title. -/
def named (title label : String) : String := title ++ ": " ++ label

/-- What the bindings of a target are about, in their names. -/
def label (t : Target) : String := t.entity ++ " - " ++ t.operation

theorem named_inj {title title' label label' : String} (h : ':' ∉ title.toList)
    (h' : ':' ∉ title'.toList) (same : named title label = named title' label') :
    title = title' ∧ label = label' := by
  have lists (a b : String) : (named a b).toList = a.toList ++ ':' :: ' ' :: b.toList := by
    simp [named]
  have cuts := congrArg (Text.cut ':') (congrArg String.toList same)
  rw [lists, lists, Text.cut_append h, Text.cut_append h'] at cuts
  simp only [Option.some.injEq, Prod.mk.injEq, List.cons.injEq, true_and] at cuts
  exact ⟨String.toList_inj.mp cuts.1, String.toList_inj.mp cuts.2⟩

/-- Of targets whose entities have no blank, the label tells the target. -/
theorem label_inj {t t' : Target} (h : ' ' ∉ t.entity.toList) (h' : ' ' ∉ t'.entity.toList)
    (same : label t = label t') : t = t' := by
  have lists (t : Target) : (label t).toList =
      t.entity.toList ++ ' ' :: '-' :: ' ' :: t.operation.toList := by
    simp [label]
  have cuts := congrArg (Text.cut ' ') (congrArg String.toList same)
  rw [lists, lists, Text.cut_append h, Text.cut_append h'] at cuts
  simp only [Option.some.injEq, Prod.mk.injEq, List.cons.injEq, true_and] at cuts
  exact congrArg₂ Target.mk (String.toList_inj.mp cuts.1) (String.toList_inj.mp cuts.2)

/-! ### Names with some titles -/

/-- The names with some titles, for each label. -/
def names (titles labels : List String) : List String :=
  labels.flatMap fun label => titles.map (named · label)

section
variable {titles titles' labels labels' : List String}

theorem mem_names {name : String} :
    name ∈ names titles labels ↔ ∃ label ∈ labels, ∃ title ∈ titles, named title label = name := by
  simp only [names, List.mem_flatMap, List.mem_map]

/-- They are different when the labels are, if there is a title at all. -/
theorem nodup_names (plain : ∀ t ∈ titles, ':' ∉ t.toList) (nodup : titles.Nodup) :
    (names titles labels).Nodup ↔ titles = [] ∨ labels.Nodup := by
  -- without titles there are no names; with one, the names of a label tell the label
  rcases titles with _ | ⟨first, rest⟩
  · have empty : names [] labels = [] := List.flatMap_eq_nil_iff.mpr fun _ _ => rfl
    simp [empty]
  have each (label : String) : ((first :: rest).map (named · label)).Nodup :=
    nodup.map_on fun t ht t' ht' same => (named_inj (plain t ht) (plain t' ht') same).1
  have apart (label label' : String) : ((first :: rest).map (named · label)).Disjoint
      ((first :: rest).map (named · label')) ↔ label ≠ label' := by
    refine ⟨?_, fun other name h h' => ?_⟩
    · rintro disjoint rfl
      exact disjoint List.mem_cons_self List.mem_cons_self
    · obtain ⟨t, ht, rfl⟩ := List.mem_map.mp h
      obtain ⟨t', ht', same⟩ := List.mem_map.mp h'
      exact other (named_inj (plain t' ht') (plain t ht) same).2.symm
  rw [names, List.nodup_flatMap, List.Pairwise.iff apart]
  simp only [each, implies_true, true_and, reduceCtorEq, false_or]
  rfl

theorem disjoint_names (plain : ∀ t ∈ titles, ':' ∉ t.toList)
    (plain' : ∀ t ∈ titles', ':' ∉ t.toList) (apart : titles.Disjoint titles') :
    (names titles labels).Disjoint (names titles' labels') := by
  intro name h h'
  obtain ⟨label, -, title, ht, rfl⟩ := mem_names.mp h
  obtain ⟨label', -, title', ht', same⟩ := mem_names.mp h'
  have e := (named_inj (plain' title' ht') (plain title ht) same).1
  exact apart ht (e ▸ ht')

end

/-! ### The titles of the rules -/

/-- The titles of the rules that are wanted. -/
def wantedTitles (rules : List Rule) : List String := (rules.filter (·.wanted)).map (·.title)

theorem map_name_block (label : String) (rules : List Rule) :
    (block label rules).map (·.name) = (wantedTitles rules).map (named · label) := by
  simp [block, wantedTitles, named]

def registrationTitle : String := "Register statistics"

/-- The titles for an entity, which are the same for each one. -/
def entityTitles (f : Features) : List String := wantedTitles (entityRules f {} "")

/-- The titles for a target. -/
def operationTitles (f : Features) : List String := wantedTitles (operationRules f ⟨"", ""⟩)

/-- Every title that there is. -/
def titles : List String :=
  registrationTitle :: ((entityRules {} {} "").map (·.title) ++
    (operationRules {} ⟨"", ""⟩).map (·.title))

theorem nodup_titles : titles.Nodup := by decide

theorem plain_titles : ∀ t ∈ titles, ':' ∉ t.toList := by decide +kernel

theorem titles_sublist (f : Features) :
    ([registrationTitle] ++ (entityTitles f ++ operationTitles f)).Sublist titles :=
  .cons_cons _ ((List.filter_sublist.map _).append (List.filter_sublist.map _))

theorem map_name_entityBlock (f : Features) (l : Lifecycle) (entity : String) :
    (entityBlock f l entity).map (·.name) = (entityTitles f).map (named · entity) := by
  rw [entityBlock, map_name_block]
  obtain ⟨counts, _, timed, _, _, _, _, _, _⟩ := f
  cases counts <;> cases timed <;> rfl

theorem map_name_operationBlock (f : Features) (t : Target) :
    (operationBlock f t).map (·.name) = (operationTitles f).map (named · (label t)) := by
  rw [operationBlock, map_name_block]
  obtain ⟨_, _, _, _, calls, _, timed, _, exits⟩ := f
  cases calls <;> cases timed <;> cases exits <;> rfl

theorem operationTitles_ne_nil_iff (f : Features) :
    operationTitles f ≠ [] ↔
      f.callCounts = true ∨ f.execTimeAvg = true ∨ f.exceptionExits = true := by
  obtain ⟨_, _, _, _, calls, _, timed, _, exits⟩ := f
  cases calls <;> cases timed <;> cases exits <;>
    simp [operationTitles, wantedTitles, operationRules]

/-! ### The names of a set -/

/-- Up to their order, the names of a set: that of the registration, those of the entities, and those of the targets. -/
theorem perm_names_output (f : Features) (r : Registration) (l : Lifecycle) (lines : List String) :
    ((output f r l lines).bindings.map (·.name)).Perm
      (names [registrationTitle] [r.objectName] ++
        (names (entityTitles f.normalized) ((targets lines).map (·.entity)).eraseDups ++
          names (operationTitles f.normalized) ((targets lines).map label))) := by
  -- positions do not matter for names
  have drafted : (output f r l lines).bindings.map (·.name) =
      (registrationRule f.normalized r :: emitted f.normalized l (targets lines)).map (·.name) :=
    List.ext_getElem (by simp [output]) fun i _ _ => by
      simp only [output, List.getElem_map, List.getElem_mapIdx]
  rw [drafted, List.map_cons]
  refine List.Perm.cons _ (((emitted_perm _ _ _).map _).trans (.of_eq ?_))
  rw [List.map_append, List.map_flatMap, List.map_flatMap, names, names, List.flatMap_map]
  simp only [map_name_entityBlock, map_name_operationBlock]
  rfl

/-- The names for some lines are different when the labels of their targets are, if anything is emitted for these. -/
theorem nodup_names_output (f : Features) (r : Registration) (l : Lifecycle) (lines : List String) :
    ((output f r l lines).bindings.map (·.name)).Nodup ↔
      operationTitles f.normalized = [] ∨ ((targets lines).map label).Nodup := by
  have sub := titles_sublist f.normalized
  have plain := fun t ht => plain_titles t (sub.subset ht)
  rw [List.forall_mem_append, List.forall_mem_append] at plain
  obtain ⟨plain_registration, plain_entity, plain_operation⟩ := plain
  have nodup := nodup_titles.sublist sub
  rw [List.nodup_append', List.nodup_append', List.disjoint_append_right] at nodup
  obtain ⟨once, ⟨nodup_entity, nodup_operation, apart⟩, apart_entity, apart_operation⟩ := nodup
  rw [(perm_names_output f r l lines).nodup_iff, List.nodup_append', List.nodup_append',
    List.disjoint_append_right, nodup_names plain_registration once,
    nodup_names plain_entity nodup_entity, nodup_names plain_operation nodup_operation]
  refine ⟨?_, fun operations => ⟨.inr (List.nodup_singleton _),
    ⟨.inr (nodup_eraseDups _), operations, ?_⟩, ?_, ?_⟩⟩
  · rintro ⟨-, ⟨-, operations, -⟩, -⟩
    exact operations
  · exact disjoint_names plain_entity plain_operation apart
  · exact disjoint_names plain_registration plain_entity apart_entity
  · exact disjoint_names plain_registration plain_operation apart_operation

/-- **Names.**  The names of a compiled set are different if and only if its targets have different labels, where
calls are counted or timed or exceptional exits are counted.  They are different when no entity has a blank. -/
theorem nodup_names_iff {f : Features} {r : Registration} {l : Lifecycle} {lines : List String}
    {set : BindingSet} (h : (Compiler.new f r l).compile lines = .ok set) :
    ((set.bindings.map (·.name)).Nodup ↔
        (f.normalized.callCounts = true ∨ f.normalized.execTimeAvg = true ∨
          f.normalized.exceptionExits = true → ((targets lines).map label).Nodup)) ∧
      ((∀ t ∈ targets lines, ' ' ∉ t.entity.toList) → (set.bindings.map (·.name)).Nodup) := by
  obtain ⟨readable, rfl⟩ := readable_of_compile h
  rw [nodup_names_output, ← operationTitles_ne_nil_iff, or_iff_not_imp_left]
  refine ⟨Iff.rfl, fun no_blank _ => ?_⟩
  exact (nodup_targets readable).map_on fun t ht t' ht' =>
    label_inj (no_blank t ht) (no_blank t' ht')

/-- Entities without blanks are enough; one may have a blank as long as no other target has its label. -/
theorem nodup_names_two_targets :
    let r : Registration := ⟨"H", "app.Main", "main", "registerMBean", "proftool:type=Statistics"⟩
    (∃ set, (Compiler.new .all r).compile ["A#C", "B#C"] = .ok set ∧
        (set.bindings.map (·.name)).Nodup) ∧
      ∃ set, (Compiler.new .all r).compile ["A - B#C", "A#C"] = .ok set ∧
        (set.bindings.map (·.name)).Nodup := by
  intro r
  have plain := compile_of_readable .all r {} (show Readable ["A#C", "B#C"] from rfl)
  have dashed := compile_of_readable .all r {} (show Readable ["A - B#C", "A#C"] from rfl)
  have labels : (targets ["A - B#C", "A#C"]).map label = ["A - B - C", "A - C"] := by
    decide +kernel
  refine ⟨⟨_, plain, (nodup_names_iff plain).2 (by decide +kernel)⟩, _, dashed, ?_⟩
  refine (nodup_names_iff dashed).1.mpr fun _ => ?_
  rw [labels]
  decide

/-- Two targets with one label: the bindings that count their calls have one name. -/
theorem equal_names_of_equal_labels :
    let lines := ["A - B#C", "A#B - C"]
    let f : Features := { callCounts := true }
    let r : Registration := ⟨"H", "app.Main", "main", "registerMBean", "proftool:type=Statistics"⟩
    ∃ set, (Compiler.new f r).compile lines = .ok set ∧
      set.bindings.map (·.name) = ["Register statistics: proftool:type=Statistics",
        "Increment call count: A - B - C", "Increment call count: A - B - C"] ∧
      ¬ (set.bindings.map (·.name)).Nodup := by
  intro lines f r
  have compiled : (Compiler.new f r).compile lines = .ok (output f r {} lines) :=
    compile_of_readable f r {} rfl
  have names : (output f r {} lines).bindings.map (·.name) =
      ["Register statistics: proftool:type=Statistics", "Increment call count: A - B - C",
        "Increment call count: A - B - C"] := by
    decide +kernel
  exact ⟨_, compiled, names, by rw [names]; decide⟩

end Metering.Compiler
