import Metering.Yaml.Scalar.Gap

/-!
# Yaml — Scalar — Plain

Scalars without quotes.  They end before a comment, a colon that a space follows, a line that is indented too little,
a document marker, and within brackets before a comma or bracket.
-/

namespace Metering.Yaml

/-- How many characters of a word of a plain scalar come next; none if a colon stands within brackets where none
may. -/
def plainRun (inFlow : Bool) : List Char → Option Nat
  | [] => some 0
  | c :: rest =>
      if isBreak c || isBlank c then some 0
      else if inFlow && c == ':' && rest.head?.any (",?[]\x7b\x7d".toList.contains ·) then none
      else if (c == ':' && atSpace rest) || (inFlow && ",[]\x7b\x7d".toList.contains c) then some 0
      else (plainRun inFlow rest).map (· + 1)

/-- Reads the words and gaps of a plain scalar: what has been read, the gap after it and where the cursor is.  Four
characters show whether a marker starts a word, and two where the word ends. -/
def readPlainFrom (inFlow : Bool) (leastColumn : Nat) :
    (fuel : Nat) → List Char → Gap → Cursor → Option (List Char × Gap × Cursor)
  | 0, _, _, _ => none
  | fuel + 1, text, gap, c =>
      if !c.canSee 4 then none
      else if c.atDocumentMarker || startsWith '#' c.rest then some (text, gap, c)
      else
        match plainRun inFlow c.rest with
        | none => none
        | some count =>
            let (text, gap) :=
              if count = 0 then (text, gap) else (text ++ gap.text ++ c.rest.take count, {})
            let c := c.advance count
            if !c.canSee 2 then none
            else if c.rest = [] ∨ ¬ atSpace c.rest then some (text, gap, c)
            else
              match Gap.read (some leastColumn) (c.rest.length + 1) c gap with
              | none => none
              | some (gap, c) =>
                  if !inFlow && c.column < leastColumn then some (text, gap, c)
                  else readPlainFrom inFlow leastColumn fuel text gap c

/-- A plain scalar: its text, whether line breaks follow it, and where it ends. -/
def readPlain (inFlow : Bool) (leastColumn : Nat) (c : Cursor) : Option (String × Bool × Cursor) :=
  (readPlainFrom inFlow leastColumn (c.rest.length + 1) [] {} c).map fun (text, gap, c) =>
    (String.ofList text, gap.isBroken, c)

end Metering.Yaml
