import Metering.Json.Basic

/-!
# Json — Printer

Two forms of a JSON value: on one line (`compact`), and indented by two spaces with one item or member a line
(`pretty`).  Strings escape the double quote, the backslash and the characters below the space, and nothing else.
-/

namespace Metering.Json

/-- A character below the space, by its code. -/
def controlCode (c : Char) : List Char :=
  ['\\', 'u', '0', '0', Nat.digitChar (c.toNat / 16), Nat.digitChar (c.toNat % 16)]

/-- One character of a string. -/
def escapeChar (c : Char) : List Char :=
  if c = '"' then ['\\', '"']
  else if c = '\\' then ['\\', '\\']
  else if c = '\x08' then ['\\', 'b']
  else if c = '\x0c' then ['\\', 'f']
  else if c = '\n' then ['\\', 'n']
  else if c = '\r' then ['\\', 'r']
  else if c = '\t' then ['\\', 't']
  else if c.toNat < 0x20 then controlCode c
  else [c]

/-- A string between its quotes. -/
def stringText (s : String) : List Char :=
  '"' :: (s.toList.flatMap escapeChar ++ ['"'])

/-- A value that holds no others. -/
def scalarText : Json → List Char
  | null => "null".toList
  | bool b => (toString b).toList
  | integer n => (toString n).toList
  | float x => (layout.text x).toList
  | string s => stringText s
  | array _ | object _ => []

/-! ### On one line -/

mutual

def compactText : Json → List Char
  | array items => '[' :: (compactItems items ++ [']'])
  | object members => '{' :: (compactMembers members ++ ['}'])
  | j => scalarText j

def compactItems : List Json → List Char
  | [] => []
  | [j] => compactText j
  | j :: js => compactText j ++ ',' :: compactItems js

def compactMembers : List (String × Json) → List Char
  | [] => []
  | [(k, j)] => stringText k ++ ':' :: compactText j
  | (k, j) :: ms => stringText k ++ ':' :: (compactText j ++ ',' :: compactMembers ms)

end

/-! ### One item or member a line -/

/-- The start of a line at a depth. -/
def indent (depth : Nat) : List Char := '\n' :: List.replicate (2 * depth) ' '

mutual

/-- The indented form of a value whose first line stands at `depth`. -/
def prettyText (depth : Nat) : Json → List Char
  | array [] => ['[', ']']
  | array items => '[' :: (prettyItems (depth + 1) items ++ indent depth ++ [']'])
  | object [] => ['{', '}']
  | object members => '{' :: (prettyMembers (depth + 1) members ++ indent depth ++ ['}'])
  | j => scalarText j

def prettyItems (depth : Nat) : List Json → List Char
  | [] => []
  | [j] => indent depth ++ prettyText depth j
  | j :: js => indent depth ++ prettyText depth j ++ ',' :: prettyItems depth js

def prettyMembers (depth : Nat) : List (String × Json) → List Char
  | [] => []
  | [(k, j)] => indent depth ++ stringText k ++ ':' :: ' ' :: prettyText depth j
  | (k, j) :: ms =>
      indent depth ++ stringText k ++ ':' :: ' ' :: (prettyText depth j ++ ',' :: prettyMembers depth ms)

end

/-- The value on one line. -/
def compact (j : Json) : String := String.ofList (compactText j)

/-- The value indented by two spaces. -/
def pretty (j : Json) : String := String.ofList (prettyText 0 j)

end Metering.Json
