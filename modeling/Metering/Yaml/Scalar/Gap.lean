import Metering.Yaml.Cursor

/-!
# Yaml — Scalar — Gap

The blanks and line breaks between two words of a scalar.  Within a line they stay as they are.  A single line feed
between lines reads as a space; of several, the first is dropped; separators of lines and paragraphs stay.
-/

namespace Metering.Yaml

/-- What stands between two words, each part in order. -/
structure Gap where
  /-- Blanks of the line, up to its break. -/
  blanks : List Char := []
  /-- The first line break: nothing if it is escaped, and `none` if there is none. -/
  first : Option (List Char) := none
  /-- The other line breaks. -/
  more : List Char := []

namespace Gap

/-- Whether the gap goes over lines. -/
def isBroken (g : Gap) : Bool := g.first.isSome

/-- How the gap reads. -/
def text (g : Gap) : List Char :=
  match g.first with
  | none => g.blanks
  | some ['\n'] => if g.more = [] then [' '] else g.more
  | some first => first ++ g.more

/-- Takes in the blanks and line breaks at the cursor.  Where a least column is given, a tab before it in a new line
is refused.  `fuel` bounds the steps. -/
def read (leastColumn : Option Nat) : (fuel : Nat) → Cursor → Gap → Option (Gap × Cursor)
  | 0, _, _ => none
  | fuel + 1, c, g =>
      match c.rest with
      | [] => some (g, c)
      | d :: _ =>
          if isBlank d then
            if g.isBroken then
              if d == '\t' && leastColumn.any fun least => c.column < least then none
              else read leastColumn fuel (c.advance 1) g
            else read leastColumn fuel (c.advance 1) { g with blanks := g.blanks ++ [d] }
          else if isBreak d then
            let (b, c) := c.readBreak
            if g.isBroken then read leastColumn fuel c { g with more := g.more ++ b.toList }
            else read leastColumn fuel c { g with blanks := [], first := some b.toList }
          else some (g, c)

end Gap

end Metering.Yaml
