import Mathlib.Data.List.DropRight
import Mathlib.Data.List.TakeWhile
import Metering.Json.Printer
import Metering.Json.Reader

/-!
# Proofs — Json — Printed

What is printed is read back.  A string gives itself back character by character, since each way to escape one is
undone by the reader (`readString_escapeChar`); a whole number of 64 bits gives itself back digit by digit
(`ofNumeral_repr`).  A value that is exact, that is made of no other numbers, is read from its indented form with
whatever follows it (`legible_of_exact`), as long as that does not go on with a numeral.  Hence `ofText?_pretty`.

Doubles are left out.  They are printed by the digits that read back to them when a number is rounded once, but the
reader rounds twice.
-/

namespace Metering

/-! ### Digits -/

theorem isDigit_of_isDigit {c : Char} (h : c.isDigit = true) : isDigit c = true := h

theorem digitValue_of_isDigit {c : Char} (h : isDigit c = true) :
    digitValue c = some (c.toNat - '0'.toNat) := by
  rw [isDigit, Bool.and_eq_true, decide_eq_true_eq, decide_eq_true_eq] at h
  rw [digitValue, if_pos h]

/-- The digits of a number start with a zero only if that is all of it. -/
theorem head?_toDigits {n : Nat} (h : 0 < n) : (Nat.toDigits 10 n).head? ≠ some '0' := by
  induction n using Nat.strongRecOn with
  | _ n ih =>
      by_cases small : n < 10
      · rw [Nat.toDigits_of_lt_base small]
        have digits : ∀ d < 10, 0 < d → [Nat.digitChar d].head? ≠ some '0' := by decide
        exact digits n small h
      · rw [Nat.toDigits_of_base_le (by decide) (Nat.not_lt.mp small),
          List.head?_append, Option.or_of_isSome (by simp [Nat.toDigits_ne_nil])]
        exact ih (n / 10) (by omega) (by omega)

namespace Json

/-! ### Strings -/

/-- The code of a control character gives it back. -/
theorem hex4_controlCode {n : Nat} (h : n < 0x20) :
    hex4 '0' '0' (Nat.digitChar (n / 16)) (Nat.digitChar (n % 16)) = some n := by
  have codes : ∀ n < 0x20,
      hex4 '0' '0' (Nat.digitChar (n / 16)) (Nat.digitChar (n % 16)) = some n := by decide
  exact codes n h

/-- An escape of one letter stands for its character. -/
theorem readString_shortEscape {letter c : Char} (h : shortEscape letter = some c)
    (read rest : List Char) : readString read ('\\' :: letter :: rest) = readString (c :: read) rest := by
  have other : letter ≠ 'u' := by rintro rfl; cases h
  rw [readString.eq_4 _ _ _ fun _ _ _ _ _ e _ => other e, h]

/-- **One character.**  It is read from any of the ways in which it is written. -/
theorem readString_escapeChar (c : Char) (read rest : List Char) :
    readString read (escapeChar c ++ rest) = readString (c :: read) rest := by
  unfold escapeChar
  split
  · rename_i quote; subst quote; exact readString_shortEscape rfl read rest
  split
  · rename_i backslash; subst backslash; exact readString_shortEscape rfl read rest
  split
  · rename_i backspace; subst backspace; exact readString_shortEscape rfl read rest
  split
  · rename_i feed; subst feed; exact readString_shortEscape rfl read rest
  split
  · rename_i newline; subst newline; exact readString_shortEscape rfl read rest
  split
  · rename_i return_; subst return_; exact readString_shortEscape rfl read rest
  split
  · rename_i tab; subst tab; exact readString_shortEscape rfl read rest
  split
  · rename_i control
    simp only [controlCode, List.cons_append, List.nil_append, readString, hex4_controlCode control,
      Char.ofNat_toNat]
    rw [if_neg (by omega), if_neg (by omega)]
  · rename_i quote backslash _ _ _ _ _ shown
    rw [List.singleton_append, readString.eq_5 _ _ _ quote (fun _ _ _ _ _ e _ => backslash e)
      (fun _ _ e _ => backslash e), if_neg (by simp [shown, backslash])]

theorem readString_flatMap (s read rest : List Char) :
    readString read (s.flatMap escapeChar ++ '"' :: rest) =
      some (String.ofList (read.reverse ++ s), rest) := by
  induction s generalizing read with
  | nil => simp [readString]
  | cons c s ih =>
      rw [List.flatMap_cons, List.append_assoc, readString_escapeChar, ih, List.reverse_cons,
        List.append_assoc, List.singleton_append]

/-- **Strings.** -/
theorem readString_stringText (s : String) (rest : List Char) :
    ∃ quoted, stringText s ++ rest = '"' :: quoted ∧ readString [] quoted = some (s, rest) := by
  refine ⟨s.toList.flatMap escapeChar ++ '"' :: rest, ?_, ?_⟩
  · rw [stringText, List.cons_append, List.append_assoc, List.singleton_append]
  · rw [readString_flatMap, List.reverse_nil, List.nil_append, String.ofList_toList]

/-! ### Numerals -/

theorem le_ofDigitChars (ds : List Char) (word : Nat) : word ≤ Nat.ofDigitChars 10 ds word := by
  induction ds generalizing word with
  | nil => exact Nat.le_refl word
  | cons d ds ih =>
      rw [Nat.ofDigitChars_cons]
      exact Nat.le_trans (by omega) (ih _)

/-- A word takes in all digits of a number that is one. -/
theorem appendDigits_eq {ds : List Char} (digits : ∀ d ∈ ds, isDigit d = true) {word : Nat}
    (fits : Nat.ofDigitChars 10 ds word < UInt64.size) :
    appendDigits word ds = (Nat.ofDigitChars 10 ds word, 0) := by
  induction ds generalizing word with
  | nil => rfl
  | cons d ds ih =>
      have value := digitValue_of_isDigit (digits d List.mem_cons_self)
      rw [Nat.ofDigitChars_cons] at fits ⊢
      rw [appendDigits, value, Option.getD_some, if_pos (Nat.lt_of_le_of_lt (le_ofDigitChars ds _) fits)]
      exact ih (fun x hx => digits x (List.mem_cons_of_mem d hx)) fits

variable {n : Nat}

theorem isDigit_of_mem_toDigits {c : Char} (h : c ∈ Nat.toDigits 10 n) : isDigit c = true :=
  isDigit_of_isDigit (Nat.isDigit_of_mem_toDigits (by decide) (by decide) h)

theorem appendDigits_toDigits (fits : n < UInt64.size) :
    appendDigits 0 (Nat.toDigits 10 n) = (n, 0) := by
  have value : Nat.ofDigitChars 10 (Nat.toDigits 10 n) 0 = n := Nat.ofDigitChars_ten_toDigits
  rw [appendDigits_eq (fun _ => isDigit_of_mem_toDigits) (value.symm ▸ fits), value]

/-- The digits of a number are no zero with more digits after it. -/
theorem toDigits_not_padded (n : Nat) :
    ¬ (Nat.toDigits 10 n = [] ∨
      ((Nat.toDigits 10 n).head? = some '0' ∧ Nat.toDigits 10 n ≠ ['0'])) := by
  rintro (nothing | ⟨zero, more⟩)
  · exact Nat.toDigits_ne_nil nothing
  · rcases Nat.eq_zero_or_pos n with rfl | positive
    · exact more (Nat.toDigits_zero 10)
    · exact head?_toDigits positive zero

/-- A numeral of digits alone is a whole number, with a sign in front or without. -/
theorem ofNumeral_toDigits (negative : Bool) (n : Nat) :
    ofNumeral ((if negative then ['-'] else []) ++ Nat.toDigits 10 n) =
      ofWhole negative (Nat.toDigits 10 n) := by
  have digits : ∀ c ∈ Nat.toDigits 10 n, isDigit c = true := fun _ => isDigit_of_mem_toDigits
  have unsigned : (Nat.toDigits 10 n).head? ≠ some '-' := fun minus =>
    absurd (digits '-' (List.mem_of_head? minus)) (by decide)
  cases negative with
  | true =>
      rw [ofNumeral]
      simp only [if_true, List.singleton_append, List.head?_cons, decide_true, List.drop_one,
        List.tail_cons, List.takeWhile_eq_self_iff.mpr digits, List.dropWhile_eq_nil_iff.mpr digits,
        toDigits_not_padded n, if_false]
  | false =>
      rw [ofNumeral]
      simp only [Bool.false_eq_true, if_false, List.nil_append, unsigned, decide_false,
        List.takeWhile_eq_self_iff.mpr digits, List.dropWhile_eq_nil_iff.mpr digits,
        toDigits_not_padded n]

/-- **Whole numbers of 64 bits.** -/
theorem ofNumeral_repr {n : Int} (low : leastWhole ≤ n) (high : n < UInt64.size) :
    ofNumeral (toString n).toList = some (.integer n) := by
  have least : leastWhole = -9223372036854775808 := rfl
  have words : UInt64.size = 18446744073709551616 := rfl
  rw [Int.toString_eq_repr, Int.repr_eq_if]
  split
  · rename_i nonneg
    rw [Nat.toList_repr]
    refine (ofNumeral_toDigits false n.toNat).trans ?_
    rw [ofWhole, appendDigits_toDigits (by omega)]
    dsimp only
    rw [if_neg (by simp; omega), if_neg Bool.false_ne_true, Int.toNat_of_nonneg nonneg]
  · rename_i below
    rw [String.toList_append, Nat.toList_repr]
    refine (ofNumeral_toDigits true (-n).toNat).trans ?_
    rw [ofWhole, appendDigits_toDigits (by omega)]
    dsimp only
    rw [if_neg (by simp; omega), if_pos rfl, Int.toNat_of_nonneg (by omega), Int.neg_neg]

/-! ### Blanks -/

/-- What numerals do not go on with. -/
def Ends (rest : List Char) : Prop := ∀ c ∈ rest.head?, isNumeric c = false

theorem skipBlanks_indent (depth : Nat) (rest : List Char) :
    skipBlanks (indent depth ++ rest) = skipBlanks rest := by
  refine List.dropWhile_append_of_pos fun c hc => ?_
  rcases List.mem_cons.mp hc with rfl | hc
  · rfl
  · rw [List.eq_of_mem_replicate hc]; rfl

theorem skipBlanks_skipBlanks (s : List Char) : skipBlanks (skipBlanks s) = skipBlanks s :=
  List.dropWhile_idempotent isBlank s

theorem readValue_skipBlanks (fuel : Nat) (s : List Char) :
    readValue fuel (skipBlanks s) = readValue fuel s := by
  cases fuel with
  | zero => rfl
  | succ fuel => rw [readValue, skipBlanks_skipBlanks, readValue]

theorem readValue_indent (fuel depth : Nat) (s : List Char) :
    readValue fuel (indent depth ++ s) = readValue fuel s := by
  rw [← readValue_skipBlanks, skipBlanks_indent, readValue_skipBlanks]

theorem readItems_skipBlanks (fuel : Nat) (items : List Json) (s : List Char) :
    readItems fuel items (skipBlanks s) = readItems fuel items s := by
  cases fuel with
  | zero => rfl
  | succ fuel => rw [readItems, readValue_skipBlanks, readItems]

theorem readMembers_skipBlanks (fuel : Nat) (members : List (String × Json)) (s : List Char) :
    readMembers fuel members (skipBlanks s) = readMembers fuel members s := by
  cases fuel with
  | zero => rfl
  | succ fuel => rw [readMembers, skipBlanks_skipBlanks, readMembers]

/-! ### Values -/

/-- Values with no numbers but whole ones of 64 bits. -/
inductive Exact : Json → Prop where
  | null : Exact .null
  | bool (b : Bool) : Exact (.bool b)
  | integer {n : Int} (low : leastWhole ≤ n) (high : n < UInt64.size) : Exact (.integer n)
  | string (s : String) : Exact (.string s)
  | array {items : List Json} (each : ∀ j ∈ items, Exact j) : Exact (.array items)
  | object {members : List (String × Json)} (each : ∀ m ∈ members, Exact m.2) :
      Exact (.object members)

variable {depth fuel : Nat} {rest : List Char}

/-- An array with items is read item by item. -/
theorem readValue_array (open_ : (skipBlanks rest).head? ≠ some ']') :
    readValue (fuel + 1) ('[' :: rest) = readItems fuel [] rest := by
  have start : skipBlanks ('[' :: rest) = '[' :: rest := rfl
  simp only [readValue, start]
  rw [← readItems_skipBlanks]
  split
  · rename_i closed
    rw [closed] at open_
    exact absurd rfl open_
  · rfl

/-- An object with members is read member by member. -/
theorem readValue_object (open_ : (skipBlanks rest).head? ≠ some '\x7d') :
    readValue (fuel + 1) ('\x7b' :: rest) = readMembers fuel [] rest := by
  have start : skipBlanks ('\x7b' :: rest) = '\x7b' :: rest := rfl
  simp only [readValue, start]
  rw [← readMembers_skipBlanks]
  split
  · rename_i closed
    rw [closed] at open_
    exact absurd rfl open_
  · rfl

theorem isBlank_of_isNumeric {c : Char} (numeric : isNumeric c = true) : isBlank c = false := by
  refine Bool.eq_false_iff.mpr fun blank => ?_
  simp only [isBlank, Bool.or_eq_true, decide_eq_true_eq] at blank
  rcases blank with ((rfl | rfl) | rfl) | rfl <;> cases numeric

/-- A value that starts as a numeral is one, up to where the numeral ends. -/
theorem readValue_numeric {c : Char} {cs : List Char} (numeric : isNumeric c = true) :
    readValue (fuel + 1) (c :: cs) =
      (ofNumeral ((c :: cs).takeWhile isNumeric)).map fun j => (j, (c :: cs).dropWhile isNumeric) := by
  have start : skipBlanks (c :: cs) = c :: cs :=
    List.dropWhile_cons_of_neg (by simp [isBlank_of_isNumeric numeric])
  rw [readValue, start]
  -- a numeral starts as no keyword, string, array or object does
  split
  all_goals first | rfl | (rename_i starts; cases starts; cases numeric)

/-- A whole number is printed as a numeral. -/
theorem toString_numeric (n : Int) :
    (toString n).toList ≠ [] ∧ ∀ c ∈ (toString n).toList, isNumeric c = true := by
  have digit {m : Nat} : ∀ c ∈ Nat.toDigits 10 m, isNumeric c = true := fun c h => by
    simp [isNumeric, isDigit_of_mem_toDigits h]
  rw [Int.toString_eq_repr, Int.repr_eq_if]
  split
  · rw [Nat.toList_repr]
    exact ⟨Nat.toDigits_ne_nil, digit⟩
  · rw [String.toList_append, Nat.toList_repr]
    refine ⟨List.append_ne_nil_of_left_ne_nil (by decide) _, fun c h => ?_⟩
    rcases List.mem_append.mp h with minus | h
    · rw [List.mem_singleton.mp minus]; rfl
    · exact digit c h

theorem readValue_toString {n : Int} (low : leastWhole ≤ n) (high : n < UInt64.size)
    (ends : Ends rest) : readValue (fuel + 1) ((toString n).toList ++ rest) = some (.integer n, rest) := by
  obtain ⟨nonempty, numeric⟩ := toString_numeric n
  have stop : rest.takeWhile isNumeric = [] ∧ rest.dropWhile isNumeric = rest := by
    cases rest with
    | nil => exact ⟨rfl, rfl⟩
    | cons c cs =>
        have other : ¬ isNumeric c = true := by simp [ends c rfl]
        exact ⟨List.takeWhile_cons_of_neg other, List.dropWhile_cons_of_neg other⟩
  have read : readValue (fuel + 1) ((toString n).toList ++ rest) =
      (ofNumeral (((toString n).toList ++ rest).takeWhile isNumeric)).map fun j =>
        (j, ((toString n).toList ++ rest).dropWhile isNumeric) := by
    obtain ⟨c, cs, starts⟩ := List.exists_cons_of_ne_nil nonempty
    rw [starts]
    exact readValue_numeric (numeric c (starts ▸ List.mem_cons_self))
  rw [read, List.takeWhile_append_of_pos numeric, List.dropWhile_append_of_pos numeric, stop.1, stop.2,
    List.append_nil, ofNumeral_repr low high]
  rfl

/-- An exact value is printed from a character on that neither is blank nor closes an array. -/
theorem prettyText_starts {j : Json} (h : Exact j) (depth : Nat) :
    ∃ c cs, prettyText depth j = c :: cs ∧ isBlank c = false ∧ c ≠ ']' := by
  cases h with
  | null => exact ⟨_, _, rfl, rfl, by decide⟩
  | bool b => cases b <;> exact ⟨_, _, rfl, rfl, by decide⟩
  | @integer n =>
      obtain ⟨nonempty, numeric⟩ := toString_numeric n
      obtain ⟨c, cs, starts⟩ := List.exists_cons_of_ne_nil nonempty
      have first : isNumeric c = true := numeric c (starts ▸ List.mem_cons_self)
      refine ⟨c, cs, starts, isBlank_of_isNumeric first, ?_⟩
      rintro rfl
      cases first
  | string s => exact ⟨_, _, rfl, rfl, by decide⟩
  | @array items => cases items <;> exact ⟨_, _, rfl, rfl, by decide⟩
  | @object members => cases members <;> exact ⟨_, _, rfl, rfl, by decide⟩

/-- A value is read from its indented form, with whatever follows that a numeral does not go on with. -/
def Legible (j : Json) : Prop :=
  ∀ (depth fuel : Nat) (rest : List Char), Ends rest → 2 * (prettyText depth j).length ≤ fuel →
    readValue fuel (prettyText depth j ++ rest) = some (j, rest)

theorem ends_comma (rest : List Char) : Ends (',' :: rest) := by
  rintro c ⟨⟩; rfl

theorem ends_indent (depth : Nat) (rest : List Char) : Ends (indent depth ++ rest) := by
  rintro c ⟨⟩; rfl

/-- **Items.**  They are read one by one up to the bracket that closes them. -/
theorem readItems_prettyItems {items : List Json} (nonempty : items ≠ [])
    (each : ∀ j ∈ items, Legible j) (read : List Json)
    (enough : 2 * (prettyItems (depth + 1) items).length < fuel) :
    readItems fuel read (prettyItems (depth + 1) items ++ (indent depth ++ ']' :: rest)) =
      some (.array (read.reverse ++ items), rest) := by
  induction items generalizing fuel read with
  | nil => exact absurd rfl nonempty
  | cons j js ih =>
      obtain ⟨fuel, rfl⟩ : ∃ n, fuel = n + 1 := ⟨fuel - 1, by omega⟩
      have first := each j List.mem_cons_self (depth + 1) fuel
      cases js with
      | nil =>
          simp only [prettyItems, List.length_append] at enough
          have item := first _ (ends_indent depth (']' :: rest)) (by omega)
          have close : skipBlanks (indent depth ++ ']' :: rest) = ']' :: rest := skipBlanks_indent depth _
          simp only [readItems, prettyItems, List.append_assoc, readValue_indent, item, close,
            List.reverse_cons]
      | cons k ks =>
          simp only [prettyItems, List.length_append, List.length_cons] at enough
          have item (s : List Char) := first (',' :: s) (ends_comma s) (by omega)
          have comma (s : List Char) : skipBlanks (',' :: s) = ',' :: s := rfl
          have enough' : 2 * (prettyItems (depth + 1) (k :: ks)).length < fuel := by omega
          have others := ih (by simp) (fun x hx => each x (List.mem_cons_of_mem j hx)) (j :: read) enough'
          simp only [readItems, prettyItems, List.append_assoc, List.cons_append, readValue_indent, item,
            comma, others, List.reverse_cons, List.nil_append]

/-- A member is read, and then what follows its value: a comma, or the brace that closes the members. -/
theorem readMembers_indent {name : String} {value : Json} {s more : List Char}
    (h : readValue fuel s = some (value, rest)) (depth : Nat) (read : List (String × Json)) :
    (skipBlanks rest = ',' :: more →
        readMembers (fuel + 1) read (indent depth ++ (stringText name ++ ':' :: ' ' :: s)) =
          readMembers fuel ((name, value) :: read) more) ∧
      (skipBlanks rest = '\x7d' :: more →
        readMembers (fuel + 1) read (indent depth ++ (stringText name ++ ':' :: ' ' :: s)) =
          some (.object ((name, value) :: read).reverse, more)) := by
  obtain ⟨quoted, starts, named⟩ := readString_stringText name (':' :: ' ' :: s)
  have quote (s : List Char) : skipBlanks ('"' :: s) = '"' :: s := rfl
  have colon (s : List Char) : skipBlanks (':' :: s) = ':' :: s := rfl
  have blank : readValue fuel (' ' :: s) = readValue fuel s := by
    rw [← readValue_skipBlanks, ← readValue_skipBlanks fuel s]
    rfl
  rw [← readMembers_skipBlanks, skipBlanks_indent, readMembers_skipBlanks, starts]
  constructor
  all_goals
    intro next
    simp only [readMembers, quote, named, colon, blank, h, next]

/-- **Members.**  They are read one by one up to the brace that closes them. -/
theorem readMembers_prettyMembers {members : List (String × Json)} (nonempty : members ≠ [])
    (each : ∀ m ∈ members, Legible m.2) (read : List (String × Json))
    (enough : 2 * (prettyMembers (depth + 1) members).length < fuel) :
    readMembers fuel read (prettyMembers (depth + 1) members ++ (indent depth ++ '\x7d' :: rest)) =
      some (.object (read.reverse ++ members), rest) := by
  induction members generalizing fuel read with
  | nil => exact absurd rfl nonempty
  | cons m ms ih =>
      obtain ⟨name, j⟩ := m
      obtain ⟨fuel, rfl⟩ : ∃ n, fuel = n + 1 := ⟨fuel - 1, by omega⟩
      have first : Legible j := each (name, j) List.mem_cons_self
      cases ms with
      | nil =>
          simp only [prettyMembers, List.length_append, List.length_cons] at enough
          have value := first (depth + 1) fuel _ (ends_indent depth ('\x7d' :: rest)) (by omega)
          have close : skipBlanks (indent depth ++ '\x7d' :: rest) = '\x7d' :: rest :=
            skipBlanks_indent depth _
          simp only [prettyMembers, List.append_assoc, List.cons_append, (readMembers_indent value _ read).2 close,
            List.reverse_cons]
      | cons k ks =>
          simp only [prettyMembers, List.length_append, List.length_cons] at enough
          have value (s : List Char) := first (depth + 1) fuel _ (ends_comma s) (by omega)
          have comma (s : List Char) : skipBlanks (',' :: s) = ',' :: s := rfl
          have enough' : 2 * (prettyMembers (depth + 1) (k :: ks)).length < fuel := by omega
          have others := ih (by simp) (fun x hx => each x (List.mem_cons_of_mem _ hx)) ((name, j) :: read) enough'
          simp only [prettyMembers, List.append_assoc, List.cons_append,
            (readMembers_indent (value _) _ read).1 (comma _), others, List.reverse_cons, List.nil_append]

/-- After the blanks there is an item, and no bracket. -/
theorem head?_prettyItems {j : Json} (h : Exact j) (depth : Nat) (js : List Json) (rest : List Char) :
    (skipBlanks (prettyItems depth (j :: js) ++ rest)).head? ≠ some ']' := by
  obtain ⟨c, cs, starts, shown, open_⟩ := prettyText_starts h depth
  obtain ⟨more, items⟩ : ∃ more, prettyItems depth (j :: js) ++ rest = indent depth ++ (c :: more) := by
    cases js <;> simp only [prettyItems, starts, List.append_assoc, List.cons_append] <;> exact ⟨_, rfl⟩
  have stay : skipBlanks (c :: more) = c :: more := List.dropWhile_cons_of_neg (by simp [shown])
  rw [items, skipBlanks_indent, stay]
  simpa using open_

/-- After the blanks there is a name, and no brace. -/
theorem head?_prettyMembers (depth : Nat) (m : String × Json) (ms : List (String × Json))
    (rest : List Char) :
    (skipBlanks (prettyMembers depth (m :: ms) ++ rest)).head? ≠ some '\x7d' := by
  obtain ⟨more, members⟩ : ∃ more, prettyMembers depth (m :: ms) ++ rest = indent depth ++ ('"' :: more) := by
    cases ms <;> simp only [prettyMembers, stringText, List.append_assoc, List.cons_append] <;> exact ⟨_, rfl⟩
  have stay : skipBlanks ('"' :: more) = '"' :: more := rfl
  rw [members, skipBlanks_indent, stay]
  exact fun same => absurd (Option.some.inj same) (by decide)

/-- A value takes a step at least. -/
theorem legible_of_succ {j : Json} (h : Exact j)
    (read : ∀ (depth fuel : Nat) (rest : List Char), Ends rest →
      2 * (prettyText depth j).length ≤ fuel + 1 →
        readValue (fuel + 1) (prettyText depth j ++ rest) = some (j, rest)) : Legible j := by
  intro depth fuel rest ends enough
  obtain ⟨c, cs, starts, -⟩ := prettyText_starts h depth
  have longer : (prettyText depth j).length = cs.length + 1 := by rw [starts, List.length_cons]
  obtain ⟨n, rfl⟩ : ∃ n, fuel = n + 1 := ⟨fuel - 1, by omega⟩
  exact read depth n rest ends enough

/-- **Values.** -/
theorem legible_of_exact {j : Json} (h : Exact j) : Legible j := by
  induction h with
  | null => exact legible_of_succ .null fun _ _ _ _ _ => rfl
  | bool b =>
      refine legible_of_succ (.bool b) fun _ _ _ _ _ => ?_
      cases b <;> rfl
  | integer low high =>
      exact legible_of_succ (.integer low high) fun _ _ _ ends _ => readValue_toString low high ends
  | string s =>
      refine legible_of_succ (.string s) fun depth fuel rest _ _ => ?_
      obtain ⟨quoted, starts, read⟩ := readString_stringText s rest
      have quote : skipBlanks ('"' :: quoted) = '"' :: quoted := rfl
      have text : prettyText depth (.string s) = stringText s := rfl
      simp only [text, starts, readValue, quote, read, Option.map_some]
  | @array items each ih =>
      refine legible_of_succ (.array each) fun depth fuel rest _ enough => ?_
      cases items with
      | nil => rfl
      | cons j js =>
          have text : prettyText depth (.array (j :: js)) =
              '[' :: (prettyItems (depth + 1) (j :: js) ++ indent depth ++ [']']) := rfl
          simp only [text, List.length_cons, List.length_append] at enough
          rw [text, List.cons_append, List.append_assoc, List.append_assoc,
            readValue_array (head?_prettyItems (each j List.mem_cons_self) _ _ _), List.singleton_append,
            readItems_prettyItems (by simp) ih [] (by omega)]
          rfl
  | @object members each ih =>
      refine legible_of_succ (.object each) fun depth fuel rest _ enough => ?_
      cases members with
      | nil => rfl
      | cons m ms =>
          have text : prettyText depth (.object (m :: ms)) =
              '\x7b' :: (prettyMembers (depth + 1) (m :: ms) ++ indent depth ++ ['\x7d']) := rfl
          simp only [text, List.length_cons, List.length_append] at enough
          rw [text, List.cons_append, List.append_assoc, List.append_assoc,
            readValue_object (head?_prettyMembers _ _ _ _), List.singleton_append,
            readMembers_prettyMembers (by simp) ih [] (by omega)]
          rfl

/-- **What is printed is read back.** -/
theorem ofText?_pretty {j : Json} (h : Exact j) : ofText? j.pretty = some j := by
  have whole := legible_of_exact h 0 (2 * (prettyText 0 j).length + 2) [] (fun _ => nofun) (by omega)
  rw [List.append_nil] at whole
  simp only [ofText?, pretty, String.toList_ofList, whole, skipBlanks, List.dropWhile_nil, if_true]

end Json

end Metering
