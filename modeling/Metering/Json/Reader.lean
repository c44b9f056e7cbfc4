import Metering.Json.Numeral

/-!
# Json — Reader

Reading JSON texts.  A text is one value between blanks; blanks are the space, the tab, the line feed and the
carriage return.
-/

namespace Metering.Json

def isBlank (c : Char) : Bool := c = ' ' || c = '\t' || c = '\n' || c = '\r'

def skipBlanks (s : List Char) : List Char := s.dropWhile isBlank

/-! ### Strings -/

/-- The number that four hexadecimal digits write. -/
def hex4 (a b c d : Char) : Option Nat := natOfDigits 16 [a, b, c, d]

/-- The character that an escape of one letter stands for. -/
def shortEscape : Char → Option Char
  | '"' => some '"'
  | '\\' => some '\\'
  | '/' => some '/'
  | 'b' => some '\x08'
  | 'f' => some '\x0c'
  | 'n' => some '\n'
  | 'r' => some '\r'
  | 't' => some '\t'
  | _ => none

/-- The character that two code units stand for, of which only the second may be missing. -/
def ofUnits (high low : Nat) : Char :=
  Char.ofNat (0x10000 + (high - 0xd800) * 0x400 + (low - 0xdc00))

/-- The rest of a string after its opening quote, with what has been read of it in reverse. -/
def readString (read : List Char) : List Char → Option (String × List Char)
  | [] => none
  | '"' :: rest => some (String.ofList read.reverse, rest)
  | '\\' :: 'u' :: a :: b :: c :: d :: rest =>
      match hex4 a b c d with
      | none => none
      | some high =>
          if 0xd800 ≤ high ∧ high < 0xdc00 then
            match rest with
            | '\\' :: 'u' :: e :: f :: g :: h :: rest =>
                match hex4 e f g h with
                | none => none
                | some low =>
                    if 0xdc00 ≤ low ∧ low < 0xe000 then readString (ofUnits high low :: read) rest
                    else none
            | _ => none
          else if 0xdc00 ≤ high ∧ high < 0xe000 then none
          else readString (Char.ofNat high :: read) rest
  | '\\' :: c :: rest =>
      match shortEscape c with
      | none => none
      | some e => readString (e :: read) rest
  | c :: rest => if c.toNat < 0x20 ∨ c = '\\' then none else readString (c :: read) rest

/-! ### Values -/

mutual

/-- The value at the head of a text and what follows it; `fuel` bounds the steps. -/
def readValue : (fuel : Nat) → List Char → Option (Json × List Char)
  | 0, _ => none
  | fuel + 1, s =>
      match skipBlanks s with
      | 'n' :: 'u' :: 'l' :: 'l' :: rest => some (null, rest)
      | 't' :: 'r' :: 'u' :: 'e' :: rest => some (bool true, rest)
      | 'f' :: 'a' :: 'l' :: 's' :: 'e' :: rest => some (bool false, rest)
      | '"' :: rest => (readString [] rest).map fun p => (string p.1, p.2)
      | '[' :: rest =>
          match skipBlanks rest with
          | ']' :: rest => some (array [], rest)
          | rest => readItems fuel [] rest
      | '{' :: rest =>
          match skipBlanks rest with
          | '}' :: rest => some (object [], rest)
          | rest => readMembers fuel [] rest
      | rest => (ofNumeral (rest.takeWhile isNumeric)).map fun j => (j, rest.dropWhile isNumeric)

/-- The rest of an array, with the items read so far in reverse. -/
def readItems : (fuel : Nat) → List Json → List Char → Option (Json × List Char)
  | 0, _, _ => none
  | fuel + 1, items, s =>
      match readValue fuel s with
      | none => none
      | some (item, rest) =>
          match skipBlanks rest with
          | ',' :: rest => readItems fuel (item :: items) rest
          | ']' :: rest => some (array (item :: items).reverse, rest)
          | _ => none

/-- The rest of an object, with the members read so far in reverse. -/
def readMembers : (fuel : Nat) → List (String × Json) → List Char → Option (Json × List Char)
  | 0, _, _ => none
  | fuel + 1, members, s =>
      match skipBlanks s with
      | '"' :: rest =>
          match readString [] rest with
          | none => none
          | some (name, rest) =>
              match skipBlanks rest with
              | ':' :: rest =>
                  match readValue fuel rest with
                  | none => none
                  | some (value, rest) =>
                      match skipBlanks rest with
                      | ',' :: rest => readMembers fuel ((name, value) :: members) rest
                      | '}' :: rest => some (object ((name, value) :: members).reverse, rest)
                      | _ => none
              | _ => none
      | _ => none

end

/-- The value that a text writes.  Each level of nesting takes two steps and at least one character. -/
def ofText? (s : String) : Option Json :=
  let cs := s.toList
  match readValue (2 * cs.length + 2) cs with
  | some (j, rest) => if skipBlanks rest = [] then some j else none
  | none => none

end Metering.Json
