import Mathlib.Data.List.Dedup
import Mathlib.Data.List.Nodup
import Metering.Proofs.Attribute.Lookup

/-!
# Proofs — Attribute — Exposition

The ways in which attributes are told: as a list with descriptions, by name, all at once with their values, as a text,
and as the values of some names.  Each works out names and values for itself.  They agree because a name determines
its attribute: so the list, which is only sorted by name, strictly ascends (`ascending_attributes`), and keeping it by
name leaves it as it is (`snapshot_eq`, `attributeNames_eq`).

A text and the values of some names are read by name, and the names of the blank key cannot be read.  Where it has
nothing, what is read of a name is what stands for it in the snapshot (`toOption_get`).
-/

namespace Metering

namespace ByName

variable {α : Type}

/-- A name after all others is put last. -/
theorem insert_of_forall_lt {name : String} (value : α) {members : List (String × α)}
    (h : ∀ m ∈ members, m.1 < name) : insert name value members = members ++ [(name, value)] := by
  induction members with
  | nil => rfl
  | cons m rest ih =>
      have after : m.1 < name := h m List.mem_cons_self
      have later : ¬ name < m.1 := String.lt_asymm after
      have other : name ≠ m.1 := fun e => String.lt_irrefl name (by rwa [← e] at after)
      rw [insert, if_neg later, if_neg other, ih fun m hm => h m (List.mem_cons_of_mem _ hm),
        List.cons_append]

/-- Members whose names ascend stay as they are. -/
theorem ofList_of_sorted {members : List (String × α)} (h : Sorted members) : ofList members = members := by
  induction members using List.reverseRecOn with
  | nil => rfl
  | append_singleton members m ih =>
      obtain ⟨sorted, -, last⟩ := List.pairwise_append.mp h
      rw [ofList_concat, ih sorted, insert_of_forall_lt]
      exact fun m' hm => last m' hm m (List.mem_singleton_self m)

end ByName

namespace Registry

variable {r : Registry}

/-! ### The list -/

/-- A name has one attribute. -/
theorem eq_of_name {a b : Attribute} (ha : a ∈ r.attributes) (hb : b ∈ r.attributes)
    (h : a.name = b.name) : a = b := by
  obtain ⟨-, named⟩ := mem_attributes_iff.mp ha
  obtain ⟨-, named'⟩ := mem_attributes_iff.mp hb
  rw [named, named'] at h
  obtain ⟨statistic, key⟩ := Statistic.nameOf_injective h
  rw [named, named', statistic, key]

theorem attribute_injective (s : Statistic) : Function.Injective (Attribute.of s) :=
  fun _ _ h => congrArg Attribute.key h

theorem statistic_of_mem_attributesOf {s : Statistic} {a : Attribute} (h : a ∈ r.attributesOf s) :
    a.statistic = s := by
  unfold attributesOf at h
  split at h
  · obtain ⟨k, -, rfl⟩ := List.mem_map.mp h
    rfl
  · cases h

theorem nodup_attributes (r : Registry) : r.attributes.Nodup := by
  refine (List.mergeSort_perm _ _).nodup_iff.mpr (List.nodup_flatMap.mpr ⟨fun s _ => ?_, ?_⟩)
  · unfold attributesOf
    split
    · exact (r.nodup_keys s.category).map (attribute_injective s)
    · exact List.nodup_nil
  · have apart : Statistic.all.Nodup := by decide
    refine apart.imp fun {s t} different a ha hb => different ?_
    rw [← statistic_of_mem_attributesOf ha, statistic_of_mem_attributesOf hb]

/-- **The list ascends strictly.** -/
theorem ascending_attributes (r : Registry) : r.attributes.Pairwise (·.name < ·.name) := by
  have sorted := @List.pairwise_mergeSort _ attributeLe
    (fun a b c hab hbc => by
      simp only [attributeLe, Bool.not_eq_true', decide_eq_false_iff_not, String.not_lt] at hab hbc ⊢
      exact String.le_trans hab hbc)
    (fun a b => by
      simp only [attributeLe, Bool.or_eq_true, Bool.not_eq_true', decide_eq_false_iff_not, String.not_lt]
      exact String.le_total a.name b.name)
    (Statistic.all.flatMap r.attributesOf)
  refine (sorted.and r.nodup_attributes).imp_of_mem fun {a b} ha hb ⟨le, different⟩ => ?_
  simp only [attributeLe, Bool.not_eq_true', decide_eq_false_iff_not, String.not_lt] at le
  rcases Std.le_iff_lt_or_eq.mp le with lt | same
  · exact lt
  · exact absurd (eq_of_name ha hb same) different

/-- There is one attribute for each statistic that is enabled and each key of its family, and no other. -/
theorem filter_attributes (r : Registry) (k : Key) (s : Statistic) :
    (r.attributes.filter fun a => a.key = k ∧ a.statistic = s) =
      if s.isEnabled r.options = true ∧ k ∈ r.keys s.category then [Attribute.of s k] else [] := by
  have only : (r.attributes.filter fun a => a.key = k ∧ a.statistic = s) =
      r.attributes.filter (· = Attribute.of s k) := by
    refine List.filter_congr fun a ha => decide_eq_decide.mpr ⟨?_, ?_⟩
    · rintro ⟨rfl, rfl⟩
      exact (mem_attributes_iff.mp ha).2
    · rintro rfl
      exact ⟨rfl, rfl⟩
  have listed : Attribute.of s k ∈ r.attributes ↔ s.isEnabled r.options = true ∧ k ∈ r.keys s.category := by
    rw [mem_attributes_iff, exposes, Bool.and_eq_true, mem_keys_iff]
    exact and_iff_left rfl
  rw [only, List.filter_eq, r.nodup_attributes.count]
  simp only [listed]
  split <;> rfl

/-! ### Names and values -/

theorem attributeNames_eq (r : Registry) : r.attributeNames = r.attributes.map (·.name) := by
  have sorted : ByName.Sorted (r.attributes.map fun a => (a.name, ())) :=
    List.pairwise_map.mpr r.ascending_attributes
  rw [attributeNames, ByName.ofList_of_sorted sorted, List.map_map]
  rfl

theorem snapshot_eq (r : Registry) :
    r.snapshot = r.attributes.map fun a => (a.name, r.value a.key a.statistic) :=
  ByName.ofList_of_sorted (List.pairwise_map.mpr r.ascending_attributes)

/-- No recorded key is blank. -/
def NoBlank (r : Registry) : Prop := ∀ category, Key.blank ∉ r.keys category

theorem NoBlank.ne_blank (h : r.NoBlank) {k : Key} {s : Statistic} (exposed : r.exposes k s = true) :
    k ≠ Key.blank := by
  rintro rfl
  rw [exposes, Bool.and_eq_true] at exposed
  exact h s.category (mem_keys_iff.mpr exposed.2)

/-- **Reading by name** gives what stands in the snapshot. -/
theorem toOption_get (h : r.NoBlank) (name : String) :
    (r.get name).toOption = ByName.get? name r.snapshot := by
  refine Option.ext fun v => ?_
  have ok : (r.get name).toOption = some v ↔ r.get name = .ok v := by
    cases r.get name <;> simp [Except.toOption]
  rw [ok, get_eq_ok_iff, get?_snapshot_eq_some_iff]
  refine ⟨?_, ?_⟩
  · rintro ⟨k, s, -, named, exposed, value⟩
    exact ⟨k, s, named, exposed, value⟩
  · rintro ⟨k, s, named, exposed, value⟩
    exact ⟨k, s, h.ne_blank exposed, named, exposed, value⟩

theorem get_of_mem (h : r.NoBlank) {a : Attribute} (ha : a ∈ r.attributes) :
    r.get a.name = .ok (r.value a.key a.statistic) := by
  obtain ⟨exposed, named⟩ := mem_attributes_iff.mp ha
  exact get_eq_ok_iff.mpr ⟨_, _, h.ne_blank exposed, congrArg Attribute.name named, exposed, rfl⟩

theorem report_eq (h : r.NoBlank) (title : String) :
    r.report title = title ++ ":\n" ++ String.join (r.attributes.map fun a =>
      a.description ++ ": " ++ toString (r.value a.key a.statistic) ++ "\n") := by
  refine congrArg (fun lines => title ++ ":\n" ++ String.join lines) (List.map_congr_left fun a ha => ?_)
  rw [get_of_mem h ha]

theorem getMany_eq (h : r.NoBlank) (names : List String) :
    r.getMany names = names.filterMap fun name => (ByName.get? name r.snapshot).map (name, ·) := by
  simp only [getMany, toOption_get h]

/-- The names whose values are given are those that are listed. -/
theorem map_fst_getMany (h : r.NoBlank) (names : List String) :
    (r.getMany names).map (·.1) = names.filter (· ∈ r.attributeNames) := by
  rw [getMany_eq h, List.map_filterMap, ← List.filterMap_eq_filter]
  refine List.filterMap_congr fun name _ => ?_
  have listed : (ByName.get? name r.snapshot).isSome = true ↔ name ∈ r.attributeNames :=
    get?_snapshot_isSome_iff
  cases value : ByName.get? name r.snapshot with
  | none =>
      rw [value] at listed
      simp [Option.guard, ← listed]
  | some v =>
      rw [value] at listed
      simp [Option.guard, ← listed]

/-- **Expositions.**  In every state the list has exactly one attribute for each statistic that is enabled and each
key of its family, and strictly ascends by name; the names and the snapshot are those of the list in its order, each
attribute with the value of its own statistic of its own key.  If no recorded key is blank, a text has the title and
one line for each attribute of the list in its order, with its description and its value; and of any names, those that
are listed are given in their order and as often as they come, each with the value that it has in the snapshot. -/
theorem expositions_of_list (r : Registry) :
    ((∀ k s, (r.attributes.filter fun a => a.key = k ∧ a.statistic = s) =
          if s.isEnabled r.options = true ∧ k ∈ r.keys s.category then [Attribute.of s k] else []) ∧
        r.attributes.Pairwise (·.name < ·.name)) ∧
      r.attributeNames = r.attributes.map (·.name) ∧
      r.snapshot = (r.attributes.map fun a => (a.name, r.value a.key a.statistic)) ∧
      (r.NoBlank →
        (∀ title, r.report title = title ++ ":\n" ++ String.join (r.attributes.map fun a =>
            a.description ++ ": " ++ toString (r.value a.key a.statistic) ++ "\n")) ∧
        ∀ names,
          r.getMany names = (names.filterMap fun name => (ByName.get? name r.snapshot).map (name, ·)) ∧
          (r.getMany names).map (·.1) = names.filter (· ∈ r.attributeNames)) :=
  ⟨⟨r.filter_attributes, r.ascending_attributes⟩, r.attributeNames_eq, r.snapshot_eq, fun unblank =>
    ⟨report_eq unblank, fun names => ⟨getMany_eq unblank names, map_fst_getMany unblank names⟩⟩⟩

/-- Two keys, one of which is a name of the other. -/
theorem expositions_of_two_keys :
    let events : List Event := [⟨0, .incrementInstances (Key.entity "A")⟩,
      ⟨0, .incrementCalls (Key.operation "A.instances" "live")⟩]
    let r := (empty.run events).2
    r.NoBlank ∧
      r.attributeNames = ["A.instances.count", "A.instances.live", "A.instances.live.calls"] ∧
      r.report "Now" = "Now:\nTotal instances of A: 1\nLive instances of A: 1\n" ++
        "Call count of A.instances.live: 1\n" ∧
      r.getMany ["A.calls", "A.instances.live", "A.instances.count", "A.instances.live"] =
        [("A.instances.live", 1), ("A.instances.count", 1), ("A.instances.live", 1)] := by
  intro events r
  have unblank : r.NoBlank := by
    intro category
    cases category <;> decide +kernel
  obtain ⟨-, names, snapshot, read⟩ := r.expositions_of_list
  obtain ⟨text, many⟩ := read unblank
  -- the statistics of these keys come in the order of their names
  have list : r.attributes = Statistic.all.flatMap r.attributesOf :=
    List.mergeSort_of_pairwise (by decide +kernel)
  rw [list] at names snapshot text
  refine ⟨unblank, names.trans (by decide +kernel), (text "Now").trans (by decide +kernel), ?_⟩
  rw [(many _).1, snapshot]
  decide +kernel

end Registry

end Metering
