import Metering.Text.Unshown
import Metering.Text.Extending

/-!
# Text — Quoted

Texts as messages quote them: between double quotes, on one line, and with every character that would not be seen
on its own written out.  A quote or backslash inside is escaped, so the closing quote is the only bare one.  Main
statement: `quoteChar_of_ascii`, that what can be read in ASCII is quoted as itself.
-/

namespace Metering.Text

/-- `\u{…}` with the code point in lower-case hexadecimal. -/
def codePoint (c : Char) : List Char :=
  '\\' :: 'u' :: '{' :: (Nat.toDigits 16 c.toNat ++ ['}'])

/-- One character of a quoted text. -/
def quoteChar (c : Char) : List Char :=
  if c = '"' then ['\\', '"']
  else if c = '\\' then ['\\', '\\']
  else if c = '\t' then ['\\', 't']
  else if c = '\n' then ['\\', 'n']
  else if c = '\r' then ['\\', 'r']
  else if c = '\x00' then ['\\', '0']
  else if isUnshown c || isExtending c then codePoint c
  else [c]

/-- A text between double quotes, with what cannot be seen in it written out. -/
def quote (s : String) : String :=
  String.ofList ('"' :: (s.toList.flatMap quoteChar ++ ['"']))

/-- A printable character of ASCII, quotes and backslashes apart, is quoted as itself. -/
theorem quoteChar_of_ascii {c : Char} (h : 0x20 ≤ c.toNat) (h' : c.toNat < 0x7f) (hq : c ≠ '"')
    (hb : c ≠ '\\') : quoteChar c = [c] := by
  have ne {d : Char} (hd : d.toNat < 0x20) : c ≠ d := by rintro rfl; omega
  simp [quoteChar, hq, hb, ne (d := '\t') (by decide), ne (d := '\n') (by decide),
    ne (d := '\r') (by decide), ne (d := '\x00') (by decide), not_isUnshown_of_ascii h h',
    not_isExtending_of_ascii (Nat.lt_trans h' (by decide))]

end Metering.Text
