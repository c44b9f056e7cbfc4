import Metering.Fault
import Metering.Text.Quoted
import Metering.Text.Split

/-!
# ObjectName

Names under which statistics are published: `domain:key=value`, with more properties after commas.  The first colon
ends the domain and the first equals sign of a property its key, so values may hold colons and equals signs.
-/

namespace Metering.ObjectName

/-- Why a name is not of that form. -/
inductive Flaw where
  | noDomain
  | emptyDomain
  | noProperties
  | badProperty
deriving DecidableEq

/-- What the form asks for where a name has the flaw. -/
def Flaw.reason : Flaw → String
  | noDomain => "expected domain:key=value"
  | emptyDomain => "empty domain"
  | noProperties => "missing key properties"
  | badProperty => "key properties must be key=value"

/-- A property has a key and a value, neither of them empty. -/
def isProperty (property : List Char) : Bool :=
  match Text.cut '=' property with
  | some (key, value) => !key.isEmpty && !value.isEmpty
  | none => false

/-- The first flaw of a name, if it has one. -/
def flaw? (name : String) : Option Flaw :=
  match Text.cut ':' name.toList with
  | none => some .noDomain
  | some (domain, properties) =>
      if domain = [] then some .emptyDomain
      else if properties = [] then some .noProperties
      else if (Text.pieces ',' properties).all isProperty then none
      else some .badProperty

/-- Accepts the names of the form. -/
def validate (name : String) : Except Fault Unit :=
  match flaw? name with
  | none => .ok ()
  | some flaw => .error (.invalidObjectName (Text.quote name ++ ": " ++ flaw.reason))

end Metering.ObjectName
