import Metering.Decimal.Layout
import Metering.Mismatch
import Metering.Yaml.Node

/-!
# Yaml — Resolution

What scalars mean.  A plain scalar without a tag is empty, a boolean, an integer or a float if it has the form of
one, and a string if not; so is every scalar in quotes.  Integers are decimal without leading zeros, or hexadecimal,
octal or binary after `0x`, `0o` and `0b`.
-/

namespace Metering.Yaml

/-- Floats are written without an exponent. -/
def layout : Decimal.Layout := ⟨fun _ => true, .up⟩

/-- The wording of a mismatch in a YAML document. -/
def mismatchMessage (m : Mismatch) : String := m.message "unit value"

/-! ### Forms of plain scalars -/

def isNull (text : String) : Bool :=
  text == "null" || text == "Null" || text == "NULL" || text == "~"

def asBoolean (text : String) : Option Bool :=
  if text = "true" ∨ text = "True" ∨ text = "TRUE" then some true
  else if text = "false" ∨ text = "False" ∨ text = "FALSE" then some false
  else none

/-- The text without a sign in front, and whether there is one. -/
def withoutSign : List Char → List Char
  | '+' :: rest => rest
  | '-' :: rest => rest
  | text => text

/-- Digits after a leading zero, which are no number. -/
def isZeroPadded (text : List Char) : Bool :=
  match withoutSign text with
  | '0' :: rest => rest ≠ [] && rest.all isDigit
  | _ => false

/-- A number without a sign, in a base that it names. -/
def prefixedNat : List Char → Option Nat
  | '0' :: 'x' :: ds => natOfDigits 16 ds
  | '0' :: 'o' :: ds => natOfDigits 8 ds
  | '0' :: 'b' :: ds => natOfDigits 2 ds
  | _ => none

/-- An integer that may have a plus sign, below a bound. -/
def unsigned (bound : Nat) (text : String) : Option Nat :=
  let digits := match text.toList with
    | '+' :: rest => rest
    | cs => cs
  let below (n : Nat) : Option Nat := if n < bound then some n else none
  match (prefixedNat digits).bind below with
  | some n => some n
  | none =>
      if isZeroPadded text.toList then none
      else (natOfDigits 10 digits).bind below

/-- An integer with a minus sign, not below the least of so many bits. -/
def negative (least : Nat) (text : String) : Option Int :=
  let within (n : Nat) : Option Int := if n ≤ least then some (-n) else none
  match text.toList with
  | '-' :: digits =>
      match (prefixedNat digits).bind within with
      | some n => some n
      | none => if isZeroPadded text.toList then none else (natOfDigits 10 digits).bind within
  | _ => none

/-- An integer as it is found: exact up to 128 bits. -/
def asInteger (text : String) : Option Found :=
  (unsigned (Nat.pow 2 64) text).map (fun n => .integer n) <|>
  (negative (Nat.pow 2 63) text).map .integer <|>
  (unsigned (Nat.pow 2 128) text).map (fun n => .wideInteger n) <|>
  (negative (Nat.pow 2 127) text).map .wideInteger

/-- The power of ten after the digits of a float, zero if there is none. -/
def floatExponent : List Char → Option Int
  | [] => some 0
  | e :: rest =>
      if e = 'e' ∨ e = 'E' then
        let digits := withoutSign rest
        (natOfDigits 10 digits).map fun n => if rest.head? = some '-' then -(n : Int) else n
      else none

/-- A decimal with digits before or after its point. -/
def finiteFloat (text : List Char) : Option Double :=
  let digits := withoutSign text
  let isNegative := text.head? = some '-'
  let whole := digits.takeWhile isDigit
  let rest := digits.dropWhile isDigit
  let (fraction, rest) := match rest with
    | '.' :: after => (after.takeWhile isDigit, after.dropWhile isDigit)
    | rest => ([], rest)
  if whole = [] ∧ fraction = [] then none
  else (floatExponent rest).bind fun e =>
    Double.nearest (Decimal.ofParts isNegative whole fraction e)

/-- The text of a float, which may also be an infinity or not a number. -/
def asFloat (text : String) : Option String :=
  let signed := withoutSign text.toList
  let positive := text.toList.head? ≠ some '-'
  let doubled := text.toList.head? = some '+' ∧ (signed.head? = some '+' ∨ signed.head? = some '-')
  let name := String.ofList signed
  if doubled then none
  else if name = ".inf" ∨ name = ".Inf" ∨ name = ".INF" then some (if positive then "inf" else "-inf")
  else if text = ".nan" ∨ text = ".NaN" ∨ text = ".NAN" then some "NaN"
  else (finiteFloat text.toList).map layout.text

/-- What a plain scalar without a tag is. -/
def plainFound (text : String) : Found :=
  if text = "" ∨ isNull text then .null
  else
    match asBoolean text, asInteger text with
    | some b, _ => .boolean b
    | none, some found => found
    | none, none =>
        if isZeroPadded text.toList then .string text
        else (asFloat text).elim (.string text) .float

/-! ### Tags -/

def boolTag : Tag := .ofString "tag:yaml.org,2002:bool"
def intTag : Tag := .ofString "tag:yaml.org,2002:int"
def floatTag : Tag := .ofString "tag:yaml.org,2002:float"
def nullTag : Tag := .ofString "tag:yaml.org,2002:null"

/-- Whether a tag is one of the document's own, which start with an exclamation mark. -/
def isLocal (tag : Tag) : Bool := tag.head? = some 0x21

/-- What a scalar is, where `expected` was expected.  A tag of the core schema asks for a form; a tag of the
document's own says nothing about a plain scalar. -/
def scalarMismatch (text : String) (style : Style) (tag : Option Tag) (expected : String) :
    Mismatch :=
  let asked (found : Option Found) (form : String) : Mismatch :=
    match found with
    | some found => .invalidType found expected
    | none => .invalidValue (.string text) form
  let plain : Mismatch := .invalidType (plainFound text) expected
  match tag with
  | none => if style = .plain then plain else .invalidType (.string text) expected
  | some tag =>
      if tag = boolTag then asked ((asBoolean text).map .boolean) "a boolean"
      else if tag = intTag then asked (asInteger text) "an integer"
      else if tag = floatTag then asked ((asFloat text).map .float) "a float"
      else if tag = nullTag then asked (if isNull text then some .null else none) "null"
      else if isLocal tag ∧ style = .plain then plain
      else .invalidType (.string text) expected

/-- Whether a scalar may have a form of the core schema: a plain one may, and a literal one with the form's tag. -/
def mayBe (formTag : Tag) (style : Style) (tag : Option Tag) : Bool :=
  style = .plain || (style = .literal && tag = some formTag)

end Metering.Yaml
