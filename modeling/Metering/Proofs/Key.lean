import Mathlib.Data.Set.Operations
import Metering.Target

/-!
# Proofs — Key

The texts of keys.  What stands for a reserved character is not reserved, and every other character stands for itself
(`sanitizeChar_eq_self_iff`), so a text is one that was made safe exactly when it has no reserved characters
(`range_sanitize`), and then it stays as it is (`sanitize_eq_self_iff`).

Characters are replaced one by one, so texts may be joined before or after (`sanitize_append`).  Hence an operation's
key is its entity's, a dot and the operation made safe (`Key.text_operation`), and what stands before the operation can
be taken away again: below one entity's key, operations share a key when they are the same once made safe
(`Key.operation_eq_iff`).

A key is blank when it was made of a text that has only characters which keys drop (`Key.ofRaw_eq_blank_iff`); an
operation's key never is.
-/

namespace Metering

/-! ### Reserved characters -/

/-- The characters that no key has. -/
def reserved : List Char := [' ', '(', ')', ',', '<', '>', '?', '/', '\\', separator]

/-- A text without reserved characters. -/
def Unreserved (text : String) : Prop := ∀ c ∈ text.toList, c ∉ reserved

instance : DecidablePred Unreserved := fun text =>
  inferInstanceAs (Decidable (∀ c ∈ text.toList, c ∉ reserved))

/-- The characters that stand for themselves are those that are not reserved. -/
theorem sanitizeChar_eq_self_iff {c : Char} : sanitizeChar c = [c] ↔ c ∉ reserved := by
  constructor
  · intro kept mem
    simp only [reserved, List.mem_cons, List.not_mem_nil, or_false] at mem
    rcases mem with rfl | rfl | rfl | rfl | rfl | rfl | rfl | rfl | rfl | rfl <;>
      exact absurd kept (by decide)
  · intro free
    simp only [reserved, List.mem_cons, List.not_mem_nil, or_false, not_or] at free
    simp [sanitizeChar, free]

theorem unreserved_sanitize (raw : String) : Unreserved (sanitize raw) := by
  intro d mem
  rw [sanitize, String.toList_ofList] at mem
  obtain ⟨c, -, stands⟩ := List.mem_flatMap.mp mem
  exact sanitizeChar_eq_self_iff.mp (sanitizeChar_of_mem stands)

theorem sanitize_eq_self_iff {text : String} : sanitize text = text ↔ Unreserved text := by
  constructor
  · intro clean
    rw [← clean]
    exact unreserved_sanitize text
  · intro free
    have kept : ∀ c ∈ text.toList, sanitizeChar c = [c] :=
      fun c mem => sanitizeChar_eq_self_iff.mpr (free c mem)
    rw [sanitize, flatMap_sanitizeChar_of_forall kept, String.ofList_toList]

/-- **The texts that are made safe** are those without reserved characters. -/
theorem range_sanitize : Set.range sanitize = {text | Unreserved text} := by
  ext text
  constructor
  · rintro ⟨raw, rfl⟩
    exact unreserved_sanitize raw
  · intro free
    exact ⟨text, sanitize_eq_self_iff.mpr free⟩

/-! ### Joined texts -/

theorem sanitize_append (a b : String) : sanitize (a ++ b) = sanitize a ++ sanitize b := by
  rw [sanitize, String.toList_append, List.flatMap_append, String.ofList_append]
  rfl

theorem sanitize_separator : sanitize (String.singleton separator) = "." := by decide

namespace Key

/-! ### The texts of keys -/

/-- The key without characters. -/
def blank : Key := ⟨"", by decide⟩

theorem text_injective {k l : Key} (h : k.text = l.text) : k = l := by
  obtain ⟨k, _⟩ := k
  obtain ⟨l, _⟩ := l
  cases h
  rfl

theorem text_eq_empty_iff {k : Key} : k.text = "" ↔ k = blank :=
  ⟨fun h => text_injective (show k.text = blank.text from h), fun h => congrArg text h⟩

/-- A text has the blank key when keys drop each of its characters. -/
theorem ofRaw_eq_blank_iff {raw : String} :
    ofRaw raw = blank ↔ ∀ c ∈ raw.toList, sanitizeChar c = [] := by
  rw [← text_eq_empty_iff, text_ofRaw, sanitize, String.ofList_eq_empty_iff,
    List.flatMap_eq_nil_iff]

/-- The separator of an operation's key is kept as a dot. -/
theorem operation_ne_blank (entity op : String) : operation entity op ≠ blank := by
  intro h
  have dropped := ofRaw_eq_blank_iff.mp h separator (by simp)
  exact absurd dropped (by decide)

theorem text_operation (entity op : String) :
    (operation entity op).text = (Key.entity entity).text ++ "." ++ sanitize op := by
  calc
    sanitize (entity ++ String.singleton separator ++ op)
      = sanitize entity ++ sanitize (String.singleton separator) ++ sanitize op := by
        rw [sanitize_append, sanitize_append]
    _ = sanitize entity ++ "." ++ sanitize op := by rw [sanitize_separator]

/-- Operations of entities with the same key share a key when they are the same once made safe. -/
theorem operation_eq_iff {e e' o o' : String} (same : Key.entity e = Key.entity e') :
    operation e o = operation e' o' ↔ sanitize o = sanitize o' := by
  constructor
  · intro shared
    have joined := congrArg text shared
    rw [text_operation, text_operation, same] at joined
    exact (String.append_right_inj _).mp joined
  · intro alike
    apply text_injective
    rw [text_operation, text_operation, same, alike]

/-- A text is a key, and then its own, when it has no reserved characters. -/
theorem map_text_ofClean? (text : String) :
    (ofClean? text).map Key.text = if Unreserved text then some text else none := by
  rw [ofClean?, Option.map_dif]
  simp only [sanitize_eq_self_iff, dite_eq_ite]

/-- **The texts of keys.**  Making a text safe twice is making it safe once, and gives exactly the texts without
reserved characters; these are the texts that are taken for keys, each for the key with that text.  Joined texts are
made safe part by part, so an operation's key is its entity's, a dot and the operation made safe, and targets whose
entities have the same key share the key of their operations exactly when these are the same once made safe. -/
theorem texts_of_keys :
    (∀ raw, sanitize (sanitize raw) = sanitize raw) ∧
    Set.range sanitize = {text | Unreserved text} ∧
    (∀ text, (ofClean? text).map Key.text = if Unreserved text then some text else none) ∧
    (∀ a b, sanitize (a ++ b) = sanitize a ++ sanitize b) ∧
    (∀ e o, (operation e o).text = (Key.entity e).text ++ "." ++ sanitize o) ∧
    ∀ t u : Target, t.entityKey = u.entityKey →
      (t.operationKey = u.operationKey ↔ sanitize t.operation = sanitize u.operation) :=
  ⟨sanitize_sanitize, range_sanitize, map_text_ofClean?, sanitize_append, text_operation,
    fun _ _ same => operation_eq_iff same⟩

/-- Two spellings of one entity: of their operations two share a key, in spite of a dropped parenthesis and a space for
an opening one, and the third has one of its own. -/
theorem texts_of_two_spellings :
    let t : Target := ⟨"List<A>", "put(int, A)"⟩
    let u : Target := ⟨"ListA", "put int, A"⟩
    let v : Target := ⟨"ListA", "put(int)"⟩
    t.entityKey = u.entityKey ∧ t.operationKey = u.operationKey ∧
      t.entityKey = v.entityKey ∧ t.operationKey ≠ v.operationKey := by
  intro t u v
  obtain ⟨-, -, -, -, -, shared⟩ := texts_of_keys
  have spelled : t.entityKey = u.entityKey := by decide
  have spelled' : t.entityKey = v.entityKey := by decide
  refine ⟨spelled, (shared t u spelled).mpr (by decide), spelled', fun same => ?_⟩
  have alike := (shared t v spelled').mp same
  exact absurd alike (by decide)

end Key

end Metering
