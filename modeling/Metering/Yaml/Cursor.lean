/-!
# Yaml — Cursor

The characters of a YAML text by their roles, and a cursor that goes through one while it keeps count of octets,
lines and columns.  A line breaks at a line feed, a carriage return, both in that order, a next-line character, a line
separator or a paragraph separator; all but the last two read as a line feed.
-/

namespace Metering.Yaml

/-! ### Characters -/

/-- The characters that a text may hold at all. -/
def isAllowed (c : Char) : Bool :=
  let n := c.toNat
  n == 0x9 || n == 0xa || n == 0xd || (0x20 ≤ n && n ≤ 0x7e) || n == 0x85 ||
    (0xa0 ≤ n && n ≤ 0xfffd) || 0x10000 ≤ n

def isBreak (c : Char) : Bool :=
  c == '\n' || c == '\r' || c == '\u0085' || c == '\u2028' || c == '\u2029'

def isBlank (c : Char) : Bool := c == ' ' || c == '\t'

/-- The characters of names: letters, digits, hyphen and underscore of ASCII. -/
def isWordChar (c : Char) : Bool :=
  ('0' ≤ c && c ≤ '9') || ('A' ≤ c && c ≤ 'Z') || ('a' ≤ c && c ≤ 'z') || c == '_' || c == '-'

/-- Whether a text is at its end or at a line break. -/
def atBreak : List Char → Bool
  | [] => true
  | c :: _ => isBreak c

/-- Whether a text is at its end, at a line break or at a blank. -/
def atSpace : List Char → Bool
  | [] => true
  | c :: _ => isBreak c || isBlank c

/-- Whether a text starts with that character. -/
def startsWith (c : Char) (text : List Char) : Bool := text.head? == some c

/-! ### The cursor -/

/-- How many octets characters have in UTF-8. -/
def octets (text : List Char) : Nat := text.foldl (fun n c => n + c.utf8Size) 0

/-- The rest of a text, with the position at which it starts. -/
structure Cursor where
  rest : List Char
  /-- The octets before it. -/
  index : Nat := 0
  line : Nat := 0
  column : Nat := 0
  /-- Whether the text goes on after the rest with what is unreadable. -/
  cut : Bool := false

namespace Cursor

/-- Whether so many characters can be looked at: past the end of a text there is nothing, which can be seen, but past
its readable part nothing can be seen. -/
def canSee (c : Cursor) (count : Nat) : Bool := !c.cut || (c.rest.take count).length == count

/-- Goes on by characters none of which breaks a line. -/
def advance (c : Cursor) (count : Nat) : Cursor :=
  { c with
    rest := c.rest.drop count
    index := c.index + octets (c.rest.take count)
    column := c.column + count }

/-- Goes on while characters are of a kind that does not break a line. -/
def skipWhile (c : Cursor) (p : Char → Bool) : Cursor :=
  c.advance (c.rest.takeWhile p).length

/-- Goes over a line break, if there is one, and tells how it reads. -/
def readBreak (c : Cursor) : Option Char × Cursor :=
  let past (count : Nat) (rest : List Char) : Cursor :=
    { c with rest, index := c.index + count, line := c.line + 1, column := 0 }
  match c.rest with
  | '\r' :: '\n' :: rest => (some '\n', past 2 rest)
  | b :: rest =>
      if b == '\u2028' || b == '\u2029' then (some b, past b.utf8Size rest)
      else if isBreak b then (some '\n', past b.utf8Size rest)
      else (none, c)
  | [] => (none, c)

def skipBreak (c : Cursor) : Cursor := c.readBreak.2

/-- Whether three such characters stand at the start of a line, and nothing else up to a space. -/
def atMarker (c : Cursor) (mark : Char) : Bool :=
  c.column == 0 && c.rest.take 3 == [mark, mark, mark] && atSpace (c.rest.drop 3)

/-- Whether a document starts or ends here by a marker. -/
def atDocumentMarker (c : Cursor) : Bool := c.atMarker '-' || c.atMarker '.'

/-- Goes over blanks and a comment, and over the line break after them; nothing else may stand before it. -/
def endLine (c : Cursor) : Option Cursor :=
  let c := c.skipWhile isBlank
  let c := if startsWith '#' c.rest then c.skipWhile fun d => !isBreak d else c
  if atBreak c.rest then some c.skipBreak else none

end Cursor

end Metering.Yaml
