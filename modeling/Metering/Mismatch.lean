import Metering.Text.Quoted

/-!
# Mismatch

How a document can fail to have the shape a value is read from, and the wording of each failure.  The wording is the
same for every document format but for the name of the empty value.
-/

namespace Metering

/-- What a document holds where something else was expected. -/
inductive Found where
  | null
  | boolean (b : Bool)
  | integer (n : Int)
  /-- An integer of more than 64 bits. -/
  | wideInteger (n : Int)
  /-- A number with a point, by its text. -/
  | float (text : String)
  | string (s : String)
  | sequence
  | map
deriving DecidableEq

/-- A fault in the shape of a document. -/
inductive Mismatch where
  | missingField (name : String)
  | unknownField (name : String) (known : List String)
  | duplicateField (name : String)
  | unknownVariant (name : String) (known : List String)
  | invalidType (found : Found) (expected : String)
  | invalidValue (found : Found) (expected : String)
  | invalidLength (length : Nat) (expected : String)
deriving DecidableEq

/-- A description of what was found; `null` is the format's name for the empty value. -/
def Found.describe (null : String) : Found → String
  | .null => null
  | .boolean b => "boolean `" ++ toString b ++ "`"
  | .integer n => "integer `" ++ toString n ++ "`"
  | .wideInteger n => "integer `" ++ toString n ++ "` as " ++ (if n < 0 then "i128" else "u128")
  | .float text => "floating point `" ++ text ++ "`"
  | .string s => "string " ++ Text.quote s
  | .sequence => "sequence"
  | .map => "map"

namespace Mismatch

/-- A name between the quotes of a message. -/
def named (name : String) : String := "`" ++ name ++ "`"

/-- The names that would have been accepted. -/
def oneOf : List String → String
  | [] => "nothing"
  | [a] => named a
  | [a, b] => named a ++ " or " ++ named b
  | names => "one of " ++ ", ".intercalate (names.map named)

/-- The wording of a mismatch. -/
def message (null : String) : Mismatch → String
  | missingField name => "missing field " ++ named name
  | unknownField name known => "unknown field " ++ named name ++ ", expected " ++ oneOf known
  | duplicateField name => "duplicate field " ++ named name
  | unknownVariant name known => "unknown variant " ++ named name ++ ", expected " ++ oneOf known
  | invalidType found expected => "invalid type: " ++ found.describe null ++ ", expected " ++ expected
  | invalidValue found expected => "invalid value: " ++ found.describe null ++ ", expected " ++ expected
  | invalidLength length expected =>
      "invalid length " ++ toString length ++ ", expected " ++ expected

end Mismatch

end Metering
