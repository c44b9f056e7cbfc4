import Mathlib.Data.List.Basic
import Mathlib.Data.Set.List
import Metering.ObjectName

/-!
# Proofs — ObjectName

The names that are accepted are those that can be put together from parts: a domain without colons, and at least one
property, each of them a key without equals signs and commas and a value without commas, and none of these empty
(`Parts`).  A name is cut at its first colon, at every comma after that and at the first equals sign of each piece, so
the parts say what each cut gives (`Parts.cut_text`, `Parts.pieces_text`, `Property.cut_text`).  Hence a name has its
parts in one way only, though values may hold colons and equals signs (`accepted_iff_parts`).
-/

namespace Metering.ObjectName

/-- A property of a name. -/
structure Property where
  key : String
  value : String
  key_ne : key ≠ ""
  key_equals : '=' ∉ key.toList
  key_comma : ',' ∉ key.toList
  value_ne : value ≠ ""
  value_comma : ',' ∉ value.toList

/-- The parts that a name is put together from. -/
structure Parts where
  domain : String
  properties : List Property
  domain_ne : domain ≠ ""
  domain_colon : ':' ∉ domain.toList
  properties_ne : properties ≠ []

def Property.text (p : Property) : String := p.key ++ "=" ++ p.value

/-- The name with these parts. -/
def Parts.text (p : Parts) : String :=
  p.domain ++ ":" ++ ",".intercalate (p.properties.map Property.text)

theorem toList_ne_nil {s : String} : s.toList ≠ [] ↔ s ≠ "" :=
  not_congr String.toList_eq_nil_iff

/-! ### Properties -/

namespace Property

theorem toList_text (p : Property) : p.text.toList = p.key.toList ++ '=' :: p.value.toList := by
  simp [text]

theorem cut_text (p : Property) :
    Text.cut '=' p.text.toList = some (p.key.toList, p.value.toList) := by
  rw [toList_text, Text.cut_append p.key_equals]

/-- A property is one piece. -/
theorem comma_text (p : Property) : ',' ∉ p.text.toList := by
  simp [toList_text, p.key_comma, p.value_comma]

theorem text_injective : Function.Injective text := by
  intro p q h
  have same := p.cut_text
  rw [h, q.cut_text, Option.some.injEq, Prod.mk.injEq, String.toList_inj, String.toList_inj] at same
  cases p
  cases q
  simp_all

/-- A piece is accepted when it is a property. -/
theorem isProperty_iff {piece : List Char} (comma : ',' ∉ piece) :
    isProperty piece = true ↔ ∃ p : Property, p.text.toList = piece := by
  constructor
  · intro h
    unfold isProperty at h
    split at h
    · rename_i key value parted
      obtain ⟨equals, rfl⟩ := Text.cut_eq_some_iff.mp parted
      rw [List.mem_append, List.mem_cons, not_or, not_or] at comma
      rw [Bool.and_eq_true, Bool.not_eq_true', Bool.not_eq_true', List.isEmpty_eq_false_iff,
        List.isEmpty_eq_false_iff] at h
      exact ⟨⟨String.ofList key, String.ofList value, toList_ne_nil.mp (by simpa using h.1),
        by simpa using equals, by simpa using comma.1, toList_ne_nil.mp (by simpa using h.2),
        by simpa using comma.2.2⟩, by simp [toList_text]⟩
    · cases h
  · rintro ⟨p, rfl⟩
    have key := toList_ne_nil.mpr p.key_ne
    have value := toList_ne_nil.mpr p.value_ne
    simp [isProperty, p.cut_text, key, value]

end Property

/-! ### Names -/

namespace Parts

/-- What stands behind the domain. -/
def rest (p : Parts) : List Char := [','].intercalate (p.properties.map fun q => q.text.toList)

theorem toList_text (p : Parts) : p.text.toList = p.domain.toList ++ ':' :: p.rest := by
  simp [text, rest, Function.comp_def]

theorem cut_text (p : Parts) : Text.cut ':' p.text.toList = some (p.domain.toList, p.rest) := by
  rw [toList_text, Text.cut_append p.domain_colon]

theorem pieces_text (p : Parts) :
    Text.pieces ',' p.rest = p.properties.map fun q => q.text.toList := by
  refine Text.pieces_intercalate (by simp [p.properties_ne]) fun piece mem => ?_
  obtain ⟨q, -, rfl⟩ := List.mem_map.mp mem
  exact q.comma_text

/-- **One way** to have parts. -/
theorem text_injective : Function.Injective text := by
  intro p q h
  have same := p.cut_text
  rw [h, q.cut_text, Option.some.injEq, Prod.mk.injEq, String.toList_inj] at same
  obtain ⟨domain, rest⟩ := same
  have injective : Function.Injective fun q : Property => q.text.toList :=
    fun _ _ e => Property.text_injective (String.toList_inj.mp e)
  have properties : p.properties = q.properties :=
    List.map_injective_iff.mpr injective (by rw [← p.pieces_text, ← q.pieces_text, rest])
  cases p
  cases q
  simp_all

end Parts

/-- Pieces are all accepted when they are properties, in their order. -/
theorem all_isProperty_iff {pieces : List (List Char)} (comma : ∀ piece ∈ pieces, ',' ∉ piece) :
    pieces.all isProperty = true ↔
      ∃ ps : List Property, ps.map (fun p => p.text.toList) = pieces := by
  have range : (∃ ps : List Property, ps.map (fun p => p.text.toList) = pieces) ↔
      ∀ piece ∈ pieces, ∃ p : Property, p.text.toList = piece :=
    Set.ext_iff.mp (Set.range_list_map _) pieces
  rw [range, List.all_eq_true]
  exact forall₂_congr fun piece mem => Property.isProperty_iff (comma piece mem)

/-- A name has no flaw when it is cut into a domain that is not empty and properties. -/
theorem flaw?_eq_none_iff {name : String} :
    flaw? name = none ↔ ∃ domain rest, Text.cut ':' name.toList = some (domain, rest) ∧
      domain ≠ [] ∧ (Text.pieces ',' rest).all isProperty = true := by
  unfold flaw?
  cases parted : Text.cut ':' name.toList with
  | none => simp
  | some parts =>
      obtain ⟨domain, rest⟩ := parts
      by_cases empty : domain = []
      · simp [empty]
      · by_cases nothing : rest = []
        · -- nothing behind the domain is one empty piece, and that is no property
          subst nothing
          have : isProperty [] = false := rfl
          simp [empty, Text.pieces_nil, this]
        · simp [empty, nothing]

theorem validate_eq_ok_iff {name : String} : validate name = .ok () ↔ flaw? name = none := by
  unfold validate
  cases flaw? name <;> simp

/-- **The names that are accepted** are those that have parts, and no two parts make one name. -/
theorem accepted_iff_parts :
    (∀ name : String, validate name = .ok () ↔ ∃ parts : Parts, parts.text = name) ∧
      Function.Injective Parts.text := by
  refine ⟨fun name => ?_, Parts.text_injective⟩
  rw [validate_eq_ok_iff, flaw?_eq_none_iff]
  constructor
  · rintro ⟨domain, rest, parted, nonempty, accepted⟩
    obtain ⟨colon, whole⟩ := Text.cut_eq_some_iff.mp parted
    obtain ⟨properties, pieces⟩ :=
      (all_isProperty_iff fun _ mem => Text.not_mem_of_mem_pieces mem).mp accepted
    have some_property : properties ≠ [] := by
      rintro rfl
      exact Text.pieces_ne_nil ',' rest pieces.symm
    refine ⟨⟨String.ofList domain, properties, toList_ne_nil.mp (by simpa using nonempty),
      by simpa using colon, some_property⟩, ?_⟩
    rw [← String.toList_inj, Parts.toList_text, Parts.rest, pieces, Text.intercalate_pieces, whole,
      String.toList_ofList]
  · rintro ⟨parts, rfl⟩
    refine ⟨_, _, parts.cut_text, toList_ne_nil.mpr parts.domain_ne, ?_⟩
    rw [parts.pieces_text]
    refine (all_isProperty_iff fun piece mem => ?_).mpr ⟨parts.properties, rfl⟩
    obtain ⟨q, -, rfl⟩ := List.mem_map.mp mem
    exact q.comma_text

/-- A name whose domain holds commas and equals signs and whose values hold colons and equals signs: its parts end
where the first separators stand. -/
theorem accepted_separators_in_parts :
    let k : Property := ⟨"k:", "v=:w", by decide, by decide, by decide, by decide, by decide⟩
    let l : Property := ⟨"l", "=", by decide, by decide, by decide, by decide, by decide⟩
    let parts : Parts := ⟨"a,b=c", [k, l], by decide, by decide, by simp⟩
    validate "a,b=c:k:=v=:w,l==" = .ok () ∧
      ∀ other : Parts, other.text = "a,b=c:k:=v=:w,l==" → other = parts := by
  intro k l parts
  have whole : parts.text = "a,b=c:k:=v=:w,l==" := rfl
  exact ⟨(accepted_iff_parts.1 _).mpr ⟨parts, whole⟩,
    fun other same => accepted_iff_parts.2 (same.trans whole.symm)⟩

end Metering.ObjectName
