import Metering.Decimal.Layout
import Metering.Mismatch

/-!
# Json — Basic

JSON values.  Whole numbers of 64 bits, signed or not, are kept exactly; every other number is a double.
-/

namespace Metering

/-- A JSON value; the members of an object are in the order of the text. -/
inductive Json where
  | null
  | bool (b : Bool)
  | integer (n : Int)
  | float (x : Double)
  | string (s : String)
  | array (items : List Json)
  | object (members : List (String × Json))

namespace Json

/-- Numbers are positional up to sixteen digits before the point and five places after it. -/
def layout : Decimal.Layout := ⟨fun point => -5 < point && point ≤ 16, .toEven⟩

/-- A value as a mismatch names it. -/
def found : Json → Found
  | null => .null
  | bool b => .boolean b
  | integer n => .integer n
  | float x => .float (layout.text x)
  | string s => .string s
  | array _ => .sequence
  | object _ => .map

/-- The wording of a mismatch in a JSON value. -/
def mismatchMessage (m : Mismatch) : String := m.message "null"

end Json

end Metering
