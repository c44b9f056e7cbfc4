import Metering.Decimal.Basic
import Metering.Yaml.Scalar.Gap

/-!
# Yaml — Scalar — Quoted

Scalars between quotes.  Between single quotes, two of them stand for one; between double quotes, a backslash starts
an escape, and at the end of a line it joins the line to the next.
-/

namespace Metering.Yaml

/-- The character that an escape of one letter stands for. -/
def simpleEscape : Char → Option Char
  | '0' => some '\x00'
  | 'a' => some '\x07'
  | 'b' => some '\x08'
  | 't' | '\t' => some '\t'
  | 'n' => some '\n'
  | 'v' => some '\x0b'
  | 'f' => some '\x0c'
  | 'r' => some '\r'
  | 'e' => some '\x1b'
  | ' ' => some ' '
  | '"' => some '"'
  | '/' => some '/'
  | '\\' => some '\\'
  | 'N' => some '\u0085'
  | '_' => some '\u00a0'
  | 'L' => some '\u2028'
  | 'P' => some '\u2029'
  | _ => none

/-- How many hexadecimal digits follow the letter of an escape. -/
def escapeWidth : Char → Option Nat
  | 'x' => some 2
  | 'u' => some 4
  | 'U' => some 8
  | _ => none

/-- The character of a code point; surrogates and what is beyond the last one have none. -/
def ofCodePoint (n : Nat) : Option Char :=
  if h : n.isValidChar then some (Char.ofNatAux n h) else none

/-- The character that an escape stands for, and how many characters the escape has, its backslash not counted. -/
def readEscape : List Char → Option (Char × Nat)
  | [] => none
  | c :: rest =>
      match escapeWidth c with
      | some width =>
          if (rest.take width).length < width then none
          else ((natOfDigits 16 (rest.take width)).bind ofCodePoint).map fun d => (d, width + 1)
      | none => (simpleEscape c).map fun d => (d, 1)

/-- Reads a word of a quoted scalar: what it reads as, whether an escaped line break ends it, and where the cursor
is.  The text read so far is in reverse. -/
def readQuotedRun (single : Bool) :
    (fuel : Nat) → List Char → Cursor → Option (List Char × Bool × Cursor)
  | 0, _, _ => none
  | fuel + 1, text, c =>
      match c.rest with
      | [] => some (text, false, c)
      | d :: rest =>
          if isBreak d || isBlank d then some (text, false, c)
          else if single then
            if d == '\'' then
              if startsWith '\'' rest then readQuotedRun single fuel ('\'' :: text) (c.advance 2)
              else some (text, false, c)
            else readQuotedRun single fuel (d :: text) (c.advance 1)
          else if d == '"' then some (text, false, c)
          else if d == '\\' then
            if rest.head?.any isBreak then some (text, true, (c.advance 1).skipBreak)
            else
              match readEscape rest with
              | none => none
              | some (e, count) => readQuotedRun single fuel (e :: text) (c.advance (count + 1))
          else readQuotedRun single fuel (d :: text) (c.advance 1)

/-- Reads the words and gaps of a quoted scalar up to and with its closing quote. -/
def readQuotedFrom (single : Bool) : (fuel : Nat) → List Char → Cursor → Option (List Char × Cursor)
  | 0, _, _ => none
  | fuel + 1, text, c =>
      if c.atDocumentMarker || c.rest = [] || !c.canSee 4 then none
      else
        match readQuotedRun single (c.rest.length + 1) [] c with
        | none => none
        | some (word, joined, c) =>
            let text := text ++ word.reverse
            if startsWith (if single then '\'' else '"') c.rest then some (text, c.advance 1)
            else
              let gap : Gap := if joined then { first := some [] } else {}
              match Gap.read none (c.rest.length + 1) c gap with
              | none => none
              | some (gap, c) => readQuotedFrom single fuel (text ++ gap.text) c

/-- A quoted scalar, from its opening quote on: its text and where it ends. -/
def readQuoted (single : Bool) (c : Cursor) : Option (String × Cursor) :=
  (readQuotedFrom single (c.rest.length + 1) [] (c.advance 1)).map fun (text, c) =>
    (String.ofList text, c)

end Metering.Yaml
