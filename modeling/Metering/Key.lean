/-!
# Key

Keys of statistics.  An entity or operation is named by arbitrary text; its key is that text made safe for a dotted
attribute path (`sanitize`).  A key carries the proof that it is in this form, so making it safe again changes
nothing (`sanitize_sanitize`), and only texts in this form are keys (`ofClean?`).
-/

namespace Metering

/-- The character between an entity and its operation. -/
def separator : Char := '#'

/-- What stands for a character in a key: space, opening parenthesis and comma become an underscore, closing
parenthesis, angle brackets, question mark and slashes are dropped, and the separator becomes a dot. -/
def sanitizeChar (c : Char) : List Char :=
  if c = ' ' ∨ c = '(' ∨ c = ',' then ['_']
  else if c = ')' ∨ c = '<' ∨ c = '>' ∨ c = '?' ∨ c = '/' ∨ c = '\\' then []
  else if c = separator then ['.']
  else [c]

/-- A text made safe for a dotted attribute path. -/
def sanitize (raw : String) : String :=
  String.ofList (raw.toList.flatMap sanitizeChar)

theorem sanitizeChar_of_mem {c d : Char} (h : d ∈ sanitizeChar c) : sanitizeChar d = [d] := by
  unfold sanitizeChar at h
  split at h
  · rw [List.mem_singleton] at h; subst h; decide
  · split at h
    · simp at h
    · split at h
      · rw [List.mem_singleton] at h; subst h; decide
      · rename_i h₁ h₂ h₃
        rw [List.mem_singleton] at h
        subst h
        simp [sanitizeChar, h₁, h₂, h₃]

theorem flatMap_sanitizeChar_of_forall {cs : List Char} (h : ∀ c ∈ cs, sanitizeChar c = [c]) :
    cs.flatMap sanitizeChar = cs := by
  induction cs with
  | nil => rfl
  | cons c cs ih =>
      rw [List.flatMap_cons, h c List.mem_cons_self, ih fun d hd => h d (List.mem_cons_of_mem c hd)]
      rfl

theorem sanitize_sanitize (raw : String) : sanitize (sanitize raw) = sanitize raw := by
  simp only [sanitize, String.toList_ofList]
  congr 1
  apply flatMap_sanitizeChar_of_forall
  intro d hd
  obtain ⟨c, -, hc⟩ := List.mem_flatMap.mp hd
  exact sanitizeChar_of_mem hc

/-- The key of a statistic: a text that `sanitize` leaves as it is. -/
structure Key where
  text : String
  clean : sanitize text = text
deriving DecidableEq

namespace Key

/-- The key of an arbitrary name. -/
def ofRaw (raw : String) : Key := ⟨sanitize raw, sanitize_sanitize raw⟩

/-- The key of what is counted for an entity: its instances and their lifetimes. -/
def entity (entity : String) : Key := ofRaw entity

/-- The key of what is counted for an operation: its calls, their times and its exceptional exits. -/
def operation (entity operation : String) : Key :=
  ofRaw (entity ++ String.singleton separator ++ operation)

/-- A text as a key, if it is one already. -/
def ofClean? (text : String) : Option Key :=
  if h : sanitize text = text then some ⟨text, h⟩ else none

/-- The order of keys: character by character by code point. -/
def le (a b : Key) : Bool := !decide (b.text < a.text)

/-- Keys in ascending order, with repetitions. -/
def sort (keys : List Key) : List Key := keys.mergeSort le

theorem ofClean?_text (k : Key) : ofClean? k.text = some k := by
  simp [ofClean?, k.clean]

theorem ofClean?_eq_some_iff {text : String} {k : Key} : ofClean? text = some k ↔ text = k.text := by
  constructor
  · intro h
    unfold ofClean? at h
    split at h
    · rw [Option.some.injEq] at h; rw [← h]
    · simp at h
  · rintro rfl; exact ofClean?_text k

@[simp] theorem text_ofRaw (raw : String) : (ofRaw raw).text = sanitize raw := rfl

end Key

end Metering
