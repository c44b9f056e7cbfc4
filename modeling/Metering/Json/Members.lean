import Metering.ByName
import Metering.Json.Basic

/-!
# Json — Members

Reading values out of JSON.  The members of an object are read in the order of their names, and of several members
of one name only the last is; what is still missing after them is reported in the order of the fields.
-/

namespace Metering.Json

/-- The members of an object in the order of their names. -/
def members (expected : String) : Json → Except Mismatch (List (String × Json))
  | object ms => .ok (ByName.ofList ms)
  | j => .error (.invalidType j.found expected)

/-- The members of an object with `size` fields.  An empty array stands for none of them, which is too few. -/
def fields (expected : String) (size : Nat) : Json → Except Mismatch (List (String × Json))
  | array [] => .error (.invalidLength 0 (expected ++ " with " ++ toString size ++ " elements"))
  | j => j.members expected

def asBool : Json → Except Mismatch Bool
  | bool b => .ok b
  | j => .error (.invalidType j.found "a boolean")

def asString : Json → Except Mismatch String
  | string s => .ok s
  | j => .error (.invalidType j.found "a string")

/-- A number that fits in 64 bits and is not below zero. -/
def asWord (expected : String) : Json → Except Mismatch UInt64
  | integer n =>
      if 0 ≤ n ∧ n < UInt64.size then .ok (.ofNat n.toNat)
      else .error (.invalidValue (.integer n) expected)
  | j => .error (.invalidType j.found expected)

def asArray : Json → Except Mismatch (List Json)
  | array items => .ok items
  | j => .error (.invalidType j.found "a sequence")

/-- The value of a field that must be there. -/
def required {α : Type} (name : String) : Option α → Except Mismatch α
  | some a => .ok a
  | none => .error (.missingField name)

end Metering.Json
