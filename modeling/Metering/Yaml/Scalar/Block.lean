import Metering.Yaml.Cursor

/-!
# Yaml — Scalar — Block

Scalars of whole lines, literal or folded.  A header tells what becomes of the line breaks at the end, and may tell
the indentation; else the first line that is not empty sets it.  When folded, a line break between two lines that do
not start with a blank reads as a space.
-/

namespace Metering.Yaml

/-- What becomes of the line breaks at the end of a block scalar. -/
inductive Chomping where
  | strip
  | clip
  | keep
deriving DecidableEq

/-- The marks of a header that come next, in either order: what becomes of the last line breaks, and by how much the
lines are indented. -/
def readBlockHeader (c : Cursor) : Option (Chomping × Nat × Cursor) :=
  let chomping (c : Cursor) : Option Chomping :=
    if startsWith '+' c.rest then some .keep
    else if startsWith '-' c.rest then some .strip
    else none
  let indentation (c : Cursor) : Option Nat :=
    c.rest.head?.bind fun d => if '0' ≤ d ∧ d ≤ '9' then some (d.toNat - '0'.toNat) else none
  match chomping c with
  | some chomp =>
      let c := c.advance 1
      match indentation c with
      | some 0 => none
      | some n => some (chomp, n, c.advance 1)
      | none => some (chomp, 0, c)
  | none =>
      match indentation c with
      | some 0 => none
      | some n =>
          let c := c.advance 1
          match chomping c with
          | some chomp => some (chomp, n, c.advance 1)
          | none => some (.clip, n, c)
      | none => some (.clip, 0, c)

/-- Goes over empty lines, and over the indentation of the line after them: the breaks read, the greatest column
reached and where the cursor is.  An indentation of zero is one not known yet; no tab may stand in it. -/
def readBlockBreaks (indent : Nat) :
    (fuel : Nat) → List Char → Nat → Cursor → Option (List Char × Nat × Cursor)
  | 0, _, _, _ => none
  | fuel + 1, breaks, deepest, c =>
      let spaces := (c.rest.takeWhile (· == ' ')).length
      let c := c.advance (if indent = 0 then spaces else min spaces (indent - c.column))
      let deepest := max deepest c.column
      if (indent = 0 ∨ c.column < indent) ∧ startsWith '\t' c.rest then none
      else if c.rest.head?.any isBreak then
        let (b, c) := c.readBreak
        readBlockBreaks indent fuel (breaks ++ b.toList) deepest c
      else some (breaks, deepest, c)

/-- The lines of a block scalar from its first on: their text, the line break after the last and those that follow
it, and where the cursor is. -/
def readBlockLines (folded : Bool) (indent : Nat) :
    (fuel : Nat) → (text first breaks : List Char) → (blankBefore : Bool) → Cursor →
      Option (List Char × List Char × List Char × Cursor)
  | 0, _, _, _, _, _ => none
  | fuel + 1, text, first, breaks, blankBefore, c =>
      if c.column = indent ∧ c.rest ≠ [] then
        let blank := c.rest.head?.any isBlank
        let join :=
          if folded && first == ['\n'] && !blankBefore && !blank then
            if breaks = [] then [' '] else []
          else first
        let line := c.rest.takeWhile fun d => !isBreak d
        let (b, c) := (c.advance line.length).readBreak
        match readBlockBreaks indent (c.rest.length + 1) [] 0 c with
        | none => none
        | some (more, _, c) =>
            readBlockLines folded indent fuel (text ++ join ++ breaks ++ line) b.toList more blank c
      else some (text, first, breaks, c)

/-- A block scalar, from its indicator on, in a collection of that indentation: its text and where it ends. -/
def readBlock (folded : Bool) (parentIndent : Int) (c : Cursor) : Option (String × Cursor) := do
  let (chomping, increment, c) ← readBlockHeader (c.advance 1)
  let c ← c.endLine
  let told := if increment = 0 then 0 else (max parentIndent 0).toNat + increment
  let (breaks, deepest, c) ← readBlockBreaks told (c.rest.length + 1) [] 0 c
  let indent := if told = 0 then max (max deepest (parentIndent + 1).toNat) 1 else told
  let (text, first, breaks, c) ← readBlockLines folded indent (c.rest.length + 1) [] [] breaks false c
  let ending := match chomping with
    | .strip => []
    | .clip => first
    | .keep => first ++ breaks
  return (String.ofList (text ++ ending), c)

end Metering.Yaml
