import Metering.Decimal.Basic
import Metering.Yaml.Cursor
import Metering.Yaml.Token

/-!
# Yaml — Name

Tokens that are names: anchors and aliases, tags, and the directives that declare a version or the handle of tags.
-/

namespace Metering.Yaml

/-! ### Anchors and aliases -/

/-- The name after the indicator of an anchor or alias. -/
def readAnchorName (c : Cursor) : Option (String × Cursor) :=
  let c := c.advance 1
  let name := c.rest.takeWhile isWordChar
  let c := c.advance name.length
  if name = [] then none
  else if atSpace c.rest || c.rest.head?.any ("?:,]\x7d%@`".toList.contains ·) then
    some (String.ofList name, c)
  else none

/-! ### Tags -/

/-- The characters of a tag; within angle brackets, commas and square brackets too. -/
def isTagChar (bracketed : Bool) (c : Char) : Bool :=
  isWordChar c || ";/?:@&=+$.%!~*'()".toList.contains c || (bracketed && ",[]".toList.contains c)

/-- How many octets a character has in UTF-8, by its first one. -/
def octetCount (first : Nat) : Option Nat :=
  if first < 0x80 then some 1
  else if first / 0x20 = 0x6 then some 2
  else if first / 0x10 = 0xe then some 3
  else if first / 0x8 = 0x1e then some 4
  else none

/-- The octets of a tag: a percent sign and two digits stand for one, and all octets of a character are so written.
`due` is how many octets of a character are still to come. -/
def tagOctets (due : Nat) : List Char → Option Tag
  | [] => if due = 0 then some [] else none
  | '%' :: a :: b :: rest => do
      let octet ← natOfDigits 16 [a, b]
      let due ←
        if due = 0 then (octetCount octet).map (· - 1)
        else if octet / 0x40 = 0x2 then some (due - 1)
        else none
      return octet.toUInt8 :: (← tagOctets due rest)
  | '%' :: _ => none
  | c :: rest =>
      if due ≠ 0 then none
      else do return Tag.ofString (String.singleton c) ++ (← tagOctets 0 rest)

/-- Reads the characters of a tag. -/
def readTagOctets (bracketed : Bool) (c : Cursor) : Option (Tag × Cursor) := do
  let text := c.rest.takeWhile (isTagChar bracketed)
  return (← tagOctets 0 text, c.advance text.length)

/-- What octets count for: those before the first zero. -/
def beforeZero (octets : Tag) : Tag := octets.takeWhile (· ≠ 0)

/-- Reads a handle: an exclamation mark, and a word and another mark if they follow. -/
def readHandle (c : Cursor) : Option (List Char × Cursor) :=
  match c.rest with
  | '!' :: rest =>
      let word := rest.takeWhile isWordChar
      let c := c.advance (word.length + 1)
      if startsWith '!' c.rest then some ('!' :: word ++ ['!'], c.advance 1)
      else some ('!' :: word, c)
  | _ => none

/-- Whether a handle has both of its marks. -/
def isWholeHandle (handle : List Char) : Bool :=
  2 ≤ handle.length && handle.getLast? == some '!'

/-- A tag without the check of what follows it: in angle brackets, with a handle, or with the mark alone.  A mark
with nothing after it is a tag of its own. -/
def readTagBody (c : Cursor) : Option (String × Tag × Cursor) :=
  if startsWith '<' (c.rest.drop 1) then do
    let (octets, c) ← readTagOctets true (c.advance 2)
    if octets = [] ∨ ¬ startsWith '>' c.rest then none
    else some ("", beforeZero octets, c.advance 1)
  else do
    let (handle, c) ← readHandle c
    if isWholeHandle handle then do
      let (octets, c) ← readTagOctets false c
      if octets = [] then none else some (String.ofList handle, beforeZero octets, c)
    else do
      let (octets, c) ← readTagOctets false c
      let suffix := beforeZero (Tag.ofString (String.ofList (handle.drop 1)) ++ octets)
      if suffix = [] then some ("", .ofString "!", c) else some ("!", suffix, c)

/-- A tag as handle and suffix.  A space follows it, or within brackets a comma. -/
def readTag (inFlow : Bool) (c : Cursor) : Option (Token × Cursor) := do
  let (handle, suffix, c) ← readTagBody c
  if (inFlow && startsWith ',' c.rest) || atSpace c.rest then some (.tag handle suffix, c) else none

/-! ### Directives -/

/-- A number of at most nine digits. -/
def readVersionNumber (c : Cursor) : Option (Nat × Cursor) :=
  let digits := c.rest.takeWhile isDigit
  if 9 < digits.length then none
  else (natOfDigits 10 digits).map fun n => (n, c.advance digits.length)

def readVersion (c : Cursor) : Option (Token × Cursor) := do
  let (major, c) ← readVersionNumber (c.skipWhile isBlank)
  if startsWith '.' c.rest then
    let (minor, c) ← readVersionNumber (c.advance 1)
    return (.versionDirective major minor, c)
  else none

def readTagDeclaration (c : Cursor) : Option (Token × Cursor) := do
  let (handle, c) ← readHandle (c.skipWhile isBlank)
  if !(isWholeHandle handle || handle == ['!']) || !(c.rest.head?.any isBlank) then none
  else
    let (octets, c) ← readTagOctets true (c.skipWhile isBlank)
    if octets = [] ∨ ¬ atSpace c.rest then none
    else return (.tagDirective (String.ofList handle) (beforeZero octets), c)

/-- A directive with the rest of its line.  Only versions and handles can be declared. -/
def readDirective (c : Cursor) : Option (Token × Cursor) := do
  let c := c.advance 1
  let name := c.rest.takeWhile isWordChar
  let c := c.advance name.length
  if name = [] ∨ ¬ atSpace c.rest then none
  else
    let (token, c) ←
      if name = "YAML".toList then readVersion c
      else if name = "TAG".toList then readTagDeclaration c
      else none
    return (token, ← c.endLine)

end Metering.Yaml
