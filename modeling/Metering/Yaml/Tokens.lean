import Metering.Yaml.Name
import Metering.Yaml.Scalar.Block
import Metering.Yaml.Scalar.Plain
import Metering.Yaml.Scalar.Quoted

/-!
# Yaml — Tokens

The tokens of a text (`tokensOf`).  Where a node may turn out to be a key only by the colon after it, its place among
the tokens is noted as a candidate, and the tokens of a key are put in there when the colon comes.  A text that cannot
be read to its end gives the tokens that were settled by then.

A text is checked by portions: a character that is not allowed makes the whole portion unreadable that it stands in,
and the portions after it.
-/

namespace Metering.Yaml

/-- A node that is a key if a colon follows it on its line. -/
structure Candidate where
  /-- The place of the node among the tokens. -/
  number : Nat
  /-- Whether the node can be nothing else, where it stands. -/
  required : Bool
  index : Nat
  line : Nat
  column : Nat

/-- How far a text has been read. -/
structure Scanner where
  cursor : Cursor
  /-- The column of the block collection, -1 outside of all. -/
  indent : Int := -1
  /-- The columns of those around it, the inmost first. -/
  outer : List Int := []
  /-- Whether a node that comes next may be a key. -/
  keyAllowed : Bool := true
  /-- The candidate at this level of brackets. -/
  candidate : Option Candidate := none
  /-- The candidates at the levels around it, the inmost first. -/
  outerCandidates : List (Option Candidate) := []
  tokens : Array Token := #[]
  finished : Bool := false

namespace Scanner

def inFlow (s : Scanner) : Bool := !s.outerCandidates.isEmpty

def emit (s : Scanner) (t : Token) : Scanner := { s with tokens := s.tokens.push t }

/-- Puts a token in before those from a place on. -/
def emitAt (s : Scanner) (number : Nat) (t : Token) : Scanner :=
  { s with tokens := s.tokens.insertIdxIfInBounds number t }

/-- The column at which the text goes on. -/
def column (s : Scanner) : Nat := s.cursor.column

/-! ### Candidates -/

/-- Whether a candidate is on an earlier line or too far back to be a key. -/
def isStale (s : Scanner) (k : Candidate) : Bool :=
  k.line < s.cursor.line || k.index + 1024 < s.cursor.index

/-- A candidate, unless it is stale; one that is required must not be. -/
def refreshOne (s : Scanner) (k : Option Candidate) : Option (Option Candidate) :=
  match k with
  | none => some none
  | some k => if s.isStale k then if k.required then none else some none else some (some k)

/-- Gives up the candidates that have become stale. -/
def refresh (s : Scanner) : Option Scanner := do
  let outerCandidates ← s.outerCandidates.mapM s.refreshOne
  let candidate ← s.refreshOne s.candidate
  return { s with candidate, outerCandidates }

/-- Gives up the candidate of this level, which must not be required. -/
def dropCandidate (s : Scanner) : Option Scanner :=
  if s.candidate.any (·.required) then none else some { s with candidate := none }

/-- Notes that the node that comes next may be a key, if it may. -/
def noteCandidate (s : Scanner) : Option Scanner :=
  if s.keyAllowed then do
    let required := !s.inFlow && decide (s.indent = s.column)
    let s ← s.dropCandidate
    let c := s.cursor
    return { s with candidate := some ⟨s.tokens.size, required, c.index, c.line, c.column⟩ }
  else some s

/-- How many tokens are settled: none is put in before them any more. -/
def settled (s : Scanner) : Nat :=
  (s.candidate :: s.outerCandidates).foldl
    (fun n k => match k with | some k => min n k.number | none => n) s.tokens.size

/-! ### Indentation -/

/-- Opens a block collection at a column, unless one is open there; its token is put in at a place. -/
def indentTo (s : Scanner) (column : Nat) (number : Nat) (t : Token) : Scanner :=
  if s.inFlow || (column : Int) ≤ s.indent then s
  else { s.emitAt number t with indent := column, outer := s.indent :: s.outer }

/-- Closes the block collections beyond a column. -/
def unindentTo (s : Scanner) (column : Int) : Scanner :=
  if s.inFlow then s else close s s.indent s.outer
where
  close (s : Scanner) (indent : Int) : List Int → Scanner
    | [] => { s with indent, outer := [] }
    | o :: outer =>
        if indent ≤ column then { s with indent, outer := o :: outer }
        else close (s.emit .blockEnd) o outer

/-! ### Between tokens -/

/-- Goes over blanks, comments and line breaks.  A new line outside of brackets may start with a key, and no tab may
stand where a key may. -/
def skipSpace : (fuel : Nat) → Scanner → Scanner
  | 0, s => s
  | fuel + 1, s =>
      let c := if s.column = 0 ∧ startsWith '\ufeff' s.cursor.rest then s.cursor.advance 1 else s.cursor
      let c := c.skipWhile fun d => d == ' ' || ((s.inFlow || !s.keyAllowed) && d == '\t')
      let c := if startsWith '#' c.rest then c.skipWhile fun d => !isBreak d else c
      if c.rest.head?.any isBreak then
        skipSpace fuel { s with cursor := c.skipBreak, keyAllowed := s.keyAllowed || !s.inFlow }
      else { s with cursor := c }

/-! ### Tokens by kind -/

/-- A token of so many characters. -/
def take (s : Scanner) (count : Nat) (t : Token) : Scanner :=
  { s with cursor := s.cursor.advance count }.emit t

/-- The end of the text, which also ends the last line. -/
def scanEnd (s : Scanner) : Option Scanner := do
  let c := s.cursor
  let s := if c.column = 0 then s else { s with cursor := { c with column := 0, line := c.line + 1 } }
  let s ← (s.unindentTo (-1)).dropCandidate
  return { s with keyAllowed := false, finished := true }.emit .streamEnd

def scanDirective (s : Scanner) : Option Scanner := do
  let s ← (s.unindentTo (-1)).dropCandidate
  let (t, cursor) ← readDirective s.cursor
  return { s with cursor, keyAllowed := false }.emit t

def scanDocumentMarker (s : Scanner) (t : Token) : Option Scanner := do
  let s ← (s.unindentTo (-1)).dropCandidate
  return { s with keyAllowed := false }.take 3 t

def scanFlowStart (s : Scanner) (t : Token) : Option Scanner := do
  let s ← s.noteCandidate
  return { s with
    outerCandidates := s.candidate :: s.outerCandidates
    candidate := none
    keyAllowed := true }.take 1 t

def scanFlowEnd (s : Scanner) (t : Token) : Option Scanner := do
  let s ← s.dropCandidate
  let s := match s.outerCandidates with
    | [] => s
    | k :: outerCandidates => { s with candidate := k, outerCandidates }
  return { s with keyAllowed := false }.take 1 t

def scanFlowEntry (s : Scanner) : Option Scanner := do
  let s ← s.dropCandidate
  return { s with keyAllowed := true }.take 1 .flowEntry

def scanBlockEntry (s : Scanner) : Option Scanner := do
  if !s.inFlow && !s.keyAllowed then none
  else
    let s ← (s.indentTo s.column s.tokens.size .blockSequenceStart).dropCandidate
    return { s with keyAllowed := true }.take 1 .blockEntry

def scanKey (s : Scanner) : Option Scanner := do
  if !s.inFlow && !s.keyAllowed then none
  else
    let s ← (s.indentTo s.column s.tokens.size .blockMappingStart).dropCandidate
    return { s with keyAllowed := !s.inFlow }.take 1 .key

/-- The colon before a value.  It makes a key of the candidate, if there is one. -/
def scanValue (s : Scanner) : Option Scanner :=
  match s.candidate with
  | some k =>
      let s := (s.emitAt k.number .key).indentTo k.column k.number .blockMappingStart
      some ({ s with candidate := none, keyAllowed := false }.take 1 .value)
  | none =>
      if !s.inFlow && !s.keyAllowed then none
      else
        let s := s.indentTo s.column s.tokens.size .blockMappingStart
        some ({ s with keyAllowed := !s.inFlow }.take 1 .value)

def scanAnchor (s : Scanner) (token : String → Token) : Option Scanner := do
  let s ← s.noteCandidate
  let (name, cursor) ← readAnchorName s.cursor
  return { s with cursor, keyAllowed := false }.emit (token name)

def scanTag (s : Scanner) : Option Scanner := do
  let s ← s.noteCandidate
  let (t, cursor) ← readTag s.inFlow s.cursor
  return { s with cursor, keyAllowed := false }.emit t

def scanBlockScalar (s : Scanner) (folded : Bool) : Option Scanner := do
  let s ← s.dropCandidate
  let (text, cursor) ← readBlock folded s.indent s.cursor
  return { s with cursor, keyAllowed := true }.emit
    (.scalar text (if folded then .folded else .literal))

def scanQuoted (s : Scanner) (single : Bool) : Option Scanner := do
  let s ← s.noteCandidate
  let (text, cursor) ← readQuoted single s.cursor
  return { s with cursor, keyAllowed := false }.emit
    (.scalar text (if single then .singleQuoted else .doubleQuoted))

/-- A plain scalar.  After one that line breaks follow, a key may come. -/
def scanPlain (s : Scanner) : Option Scanner := do
  let s ← s.noteCandidate
  let (text, broken, cursor) ← readPlain s.inFlow (s.indent + 1).toNat s.cursor
  return { s with cursor, keyAllowed := broken }.emit (.scalar text .plain)

/-- Whether a plain scalar may start so: with no space or indicator, or with one that a space does not follow. -/
def startsPlain (inFlow : Bool) : List Char → Bool
  | [] => false
  | c :: rest =>
      (!isBreak c && !isBlank c && !("-?:,[]\x7b\x7d#&*!|>'\"%@`".toList.contains c)) ||
        (c == '-' && !rest.head?.any isBlank) ||
        (!inFlow && (c == '?' || c == ':') && !atSpace rest)

/-- The token at the cursor, by its first character. -/
def scanHere (s : Scanner) : Option Scanner :=
  let c := s.cursor
  let spaced := atSpace (c.rest.drop 1)
  match c.rest with
  | [] => s.scanEnd
  | d :: _ =>
      if c.column = 0 ∧ d = '%' then s.scanDirective
      else if c.atMarker '-' then s.scanDocumentMarker .documentStart
      else if c.atMarker '.' then s.scanDocumentMarker .documentEnd
      else if d = '[' then s.scanFlowStart .flowSequenceStart
      else if d = '{' then s.scanFlowStart .flowMappingStart
      else if d = ']' then s.scanFlowEnd .flowSequenceEnd
      else if d = '}' then s.scanFlowEnd .flowMappingEnd
      else if d = ',' then s.scanFlowEntry
      else if d = '-' ∧ spaced then s.scanBlockEntry
      else if d = '?' ∧ (s.inFlow ∨ spaced) then s.scanKey
      else if d = ':' ∧ (s.inFlow ∨ spaced) then s.scanValue
      else if d = '*' then s.scanAnchor .alias
      else if d = '&' then s.scanAnchor .anchor
      else if d = '!' then s.scanTag
      else if d = '|' ∧ ¬ s.inFlow then s.scanBlockScalar false
      else if d = '>' ∧ ¬ s.inFlow then s.scanBlockScalar true
      else if d = '\'' then s.scanQuoted true
      else if d = '"' then s.scanQuoted false
      else if startsPlain s.inFlow c.rest then s.scanPlain
      else none

/-- Reads one more token, and what it shows about those before it.  Four characters show which token it is, and the one
after it where it ends. -/
def scan (s : Scanner) : Option Scanner := do
  let s ← (s.skipSpace (s.cursor.rest.length + 1)).refresh
  if !s.cursor.canSee 4 then none
  else
    let s ← (s.unindentTo s.column).scanHere
    if !s.cursor.canSee 1 then none else s.refresh

/-- Reads tokens to the end of the text.  Where that fails, only the tokens that were settled are left. -/
def scanAll : (fuel : Nat) → Scanner → List Token
  | 0, s => (s.tokens.toList).take s.settled
  | fuel + 1, s =>
      if s.finished then s.tokens.toList
      else
        match s.scan with
        | none => s.tokens.toList.take s.settled
        | some s => scanAll fuel s

end Scanner

/-- How many octets a portion of a text has at most. -/
def portionSize : Nat := 16384

/-- The portions of a text before the first with a character that is not allowed, if there is one.  `before` and
`portion` are what was read before this portion and of it, in reverse, and `size` is how many octets of the portion
were read. -/
def readablePart (before portion : List Char) (size : Nat) : List Char → Option (List Char)
  | [] => none
  | c :: rest =>
      if portionSize < size + c.utf8Size then
        let before := portion ++ before
        if isAllowed c then readablePart before [c] c.utf8Size rest else some before.reverse
      else if isAllowed c then readablePart before (c :: portion) (size + c.utf8Size) rest
      else some before.reverse

/-- The tokens of a text, with `streamEnd` as the last if it can be read to its end. -/
def tokensOf (text : String) : List Token :=
  let whole := text.toList
  let part := readablePart [] [] 0 whole
  let cs := part.getD whole
  Scanner.scanAll (cs.length + 2) { cursor := { rest := cs, cut := part.isSome } }

end Metering.Yaml
