/-!
# Text — Blank

The characters of Unicode's `White_Space` property, and the texts made of nothing else.  Every character that is
white space in ASCII's sense is one (`isSpace_of_isWhitespace`).
-/

namespace Metering.Text

/-- The twenty-five characters with Unicode's `White_Space` property. -/
def isSpace (c : Char) : Bool :=
  let n := c.toNat
  (0x9 ≤ n && n ≤ 0xd) || n == 0x20 || n == 0x85 || n == 0xa0 || n == 0x1680 ||
    (0x2000 ≤ n && n ≤ 0x200a) || n == 0x2028 || n == 0x2029 || n == 0x202f || n == 0x205f ||
    n == 0x3000

/-- A text is blank when nothing would be left of it after trimming: it has no character but white space. -/
def isBlank (s : String) : Bool :=
  s.toList.all isSpace

theorem isBlank_iff {s : String} : isBlank s = true ↔ ∀ c ∈ s.toList, isSpace c = true := by
  simp [isBlank]

theorem isSpace_of_isWhitespace {c : Char} (h : c.isWhitespace = true) : isSpace c = true := by
  simp only [Char.isWhitespace, Bool.or_eq_true, decide_eq_true_eq] at h
  rcases h with ((h | h) | h) | h <;> subst h <;> decide

end Metering.Text
