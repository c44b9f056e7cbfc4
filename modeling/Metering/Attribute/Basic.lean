import Metering.Attribute.Statistic
import Metering.ByName
import Metering.Json.Printer

/-!
# Attribute — Basic

The statistics of a registry as named attributes.  Nothing is stored: which attributes there are follows from the
keys and the options of the moment, so a key that was just written is listed by the next query.  Values are signed
words of 64 bits, and a count too great for one shows as the greatest.
-/

namespace Metering

/-- A statistic of a key, with its name and description. -/
structure Attribute where
  name : String
  key : Key
  statistic : Statistic
  description : String
deriving DecidableEq

/-- The attribute for a statistic of a key. -/
def Attribute.of (statistic : Statistic) (key : Key) : Attribute :=
  ⟨statistic.nameOf key, key, statistic, statistic.describe key⟩

namespace Registry

/-- A word as a signed one, the greatest if it is too great. -/
def clamped (word : UInt64) : Int := min (word.toNat : Int) greatestSigned

/-- The value of a statistic of a key.  What was never recorded, and an extremum that is unset, show as zero. -/
def value (r : Registry) (key : Key) : Statistic → Int
  | .instancesCount => clamped (r.instanceTotal key)
  | .instancesLive => r.instanceLive key
  | .lifetimeMinimum => clamped (((r.lifetime? key).bind (·.min)).getD 0)
  | .lifetimeAverage => clamped (((r.lifetime? key).map (·.average)).getD 0)
  | .lifetimeMaximum => clamped (((r.lifetime? key).bind (·.max)).getD 0)
  | .calls => clamped (r.callCount key)
  | .execTimeMinimum => clamped (((r.execTime? key).bind (·.min)).getD 0)
  | .execTimeAverage => clamped (((r.execTime? key).map (·.average)).getD 0)
  | .execTimeMaximum => clamped (((r.execTime? key).bind (·.max)).getD 0)
  | .exceptionExits => clamped (r.exceptionExitCount key)

/-- Whether a statistic of a key is exposed. -/
def exposes (r : Registry) (key : Key) (statistic : Statistic) : Bool :=
  statistic.isEnabled r.options && r.contains statistic.category key

/-- The attributes of one statistic. -/
def attributesOf (r : Registry) (statistic : Statistic) : List Attribute :=
  if statistic.isEnabled r.options then (r.keys statistic.category).map (Attribute.of statistic)
  else []

/-- The order of attributes: that of their names. -/
def attributeLe (a b : Attribute) : Bool := !decide (b.name < a.name)

/-- All attributes in the order of their names. -/
def attributes (r : Registry) : List Attribute :=
  (Statistic.all.flatMap r.attributesOf).mergeSort attributeLe

/-- The names of all attributes in ascending order, each once. -/
def attributeNames (r : Registry) : List String :=
  (ByName.ofList (r.attributes.map fun a => (a.name, ()))).map (·.1)

/-- The value of the attribute of that name: of the first reading of the name that is exposed. -/
def get (r : Registry) (name : String) : Except Fault Int :=
  match (Statistic.candidates name).find? fun c => r.exposes c.1 c.2 with
  | some (key, statistic) => .ok (r.value key statistic)
  | none => .error (.unknownAttribute name)

/-- The values of several names; a name without an attribute is passed over. -/
def getMany (r : Registry) (names : List String) : List (String × Int) :=
  names.filterMap fun name => (r.get name).toOption.map fun value => (name, value)

/-- The values of all attributes by name. -/
def snapshot (r : Registry) : List (String × Int) :=
  ByName.ofList (r.attributes.map fun a => (a.name, r.value a.key a.statistic))

/-- A title and one line with description and value for each attribute that can be read by its name. -/
def report (r : Registry) (title : String) : String :=
  let line (a : Attribute) : String :=
    match r.get a.name with
    | .ok value => a.description ++ ": " ++ toString value ++ "\n"
    | .error _ => ""
  title ++ ":\n" ++ String.join (r.attributes.map line)

/-- An attribute is listed exactly when its statistic of its key is exposed. -/
theorem mem_attributes_iff {r : Registry} {a : Attribute} :
    a ∈ r.attributes ↔ r.exposes a.key a.statistic = true ∧ a = Attribute.of a.statistic a.key := by
  simp only [attributes, List.mem_mergeSort, List.mem_flatMap, attributesOf, exposes,
    Bool.and_eq_true]
  constructor
  · rintro ⟨s, -, h⟩
    split at h
    · rename_i hs
      obtain ⟨k, hk, rfl⟩ := List.mem_map.mp h
      exact ⟨⟨hs, mem_keys_iff.mp hk⟩, rfl⟩
    · simp at h
  · rintro ⟨⟨hs, hk⟩, e⟩
    refine ⟨a.statistic, by cases a.statistic <;> decide, ?_⟩
    rw [if_pos hs]
    exact List.mem_map.mpr ⟨a.key, mem_keys_iff.mpr hk, e.symm⟩

end Registry

/-- The values of all attributes of a registry at one moment, under the name of the object. -/
structure Snapshot where
  object : String
  values : List (String × Int)
deriving DecidableEq

namespace Snapshot

def capture (object : String) (r : Registry) : Snapshot := ⟨object, r.snapshot⟩

def toJson (s : Snapshot) : Json :=
  .object [("object", .string s.object),
    ("values", .object (s.values.map fun v => (v.1, .integer v.2)))]

end Snapshot

end Metering
