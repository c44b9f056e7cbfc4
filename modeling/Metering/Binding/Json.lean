import Metering.Binding.Basic
import Metering.Json.Members

/-!
# Binding — Json

Bindings as JSON.  Each type has a writer `toJson` and a reader `ofJson`; the readers accept what the writers give
and report the first member that does not fit.
-/

namespace Metering

/-! ### Features and options -/

namespace Features

def toJson (f : Features) : Json :=
  .object (f.toMembers.map fun m => (m.1, .bool m.2))

/-- Missing features are off; members that are no features are refused. -/
def ofJson (j : Json) : Except Mismatch Features := do
  let members ← match j with
    | .array [] => .ok []
    | j => j.members "struct FeatureFlags"
  let enabled ← members.mapM fun m =>
    if m.1 ∈ names then m.2.asBool.map fun b => (m.1, b)
    else .error (.unknownField m.1 names)
  return ofNames fun name => (ByName.get? name enabled).getD false

end Features

namespace RecordOptions

def toJson (o : RecordOptions) : Json :=
  .object (names.zip (o.toList.map .bool))

/-- All options must be there; other members are not looked at. -/
def ofJson (j : Json) : Except Mismatch RecordOptions := do
  let members ← j.fields "struct RecordOptions" names.length
  let set ← (members.filter fun m => m.1 ∈ names).mapM fun m => m.2.asBool.map fun b => (m.1, b)
  let option (name : String) := Json.required name (ByName.get? name set)
  return {
    lifetimeMin := ← option "lifetime_min"
    lifetimeMax := ← option "lifetime_max"
    execTimeMin := ← option "exec_time_min"
    execTimeMax := ← option "exec_time_max"
    exceptionExits := ← option "exception_exits" }

end RecordOptions

/-! ### Targets -/

namespace Target

def names : List String := ["entity", "operation"]

def toJson (t : Target) : Json :=
  .object [("entity", .string t.entity), ("operation", .string t.operation)]

/-- Both members must be there and no others. -/
def ofJson (j : Json) : Except Mismatch Target := do
  let members ← j.fields "struct Target" names.length
  let texts ← members.mapM fun m =>
    if m.1 ∈ names then m.2.asString.map fun s => (m.1, s)
    else .error (.unknownField m.1 names)
  return {
    entity := ← Json.required "entity" (ByName.get? "entity" texts)
    operation := ← Json.required "operation" (ByName.get? "operation" texts) }

end Target

/-! ### Phases and actions -/

namespace Phase

def all : List Phase := [entry, exit, exceptionExit]

def tag : Phase → String
  | entry => "Entry"
  | exit => "Exit"
  | exceptionExit => "ExceptionExit"

def toJson (p : Phase) : Json := .string p.tag

def ofTag (tag : String) : Except Mismatch Phase :=
  match all.find? fun p => p.tag = tag with
  | some p => .ok p
  | none => .error (.unknownVariant tag (all.map Phase.tag))

/-- A phase is its tag, or an object with the tag as its only member and nothing under it. -/
def ofJson : Json → Except Mismatch Phase
  | .string tag => ofTag tag
  | .object ms =>
      match ByName.ofList ms with
      | [(tag, content)] => do
          let phase ← ofTag tag
          match content with
          | .null => return phase
          | j => .error (.invalidType j.found "unit")
      | _ => .error (.invalidValue .map "map with a single key")
  | j => .error (.invalidType j.found "string or map")

end Phase

namespace Action

def Kind.tag : Kind → String
  | register => "register"
  | incrementInstanceCount => "increment_instance_count"
  | decrementLiveInstanceCount => "decrement_live_instance_count"
  | recordCreationTime => "record_creation_time"
  | recordInstanceLifetime => "record_instance_lifetime"
  | incrementCallCount => "increment_call_count"
  | recordCallStart => "record_call_start"
  | recordCallEnd => "record_call_end"
  | incrementExceptionExit => "increment_exception_exit"

def Kind.ofTag (tag : String) : Except Mismatch Kind :=
  match all.find? fun k => k.tag = tag with
  | some k => .ok k
  | none => .error (.unknownVariant tag (all.map Kind.tag))

def toJson (a : Action) : Json :=
  let kind := ("kind", Json.string a.kind.tag)
  match a with
  | register call objectName options =>
      .object [kind, ("call", .string call), ("object_name", .string objectName),
        ("options", options.toJson)]
  | _ => .object [kind]

/-- The members of a registration that have been read. -/
structure Payload where
  call : Option String := none
  objectName : Option String := none
  options : Option RecordOptions := none

/-- Reads one member of a registration; a member that it does not know is not looked at. -/
def Payload.read (p : Payload) (member : String × Json) : Except Mismatch Payload :=
  match member.1 with
  | "call" => member.2.asString.map fun call => { p with call }
  | "object_name" => member.2.asString.map fun objectName => { p with objectName }
  | "options" => (RecordOptions.ofJson member.2).map fun options => { p with options }
  | _ => .ok p

/-- The kind that an object's `kind` member names. -/
def Kind.ofMembers (members : List (String × Json)) : Except Mismatch Kind :=
  match ByName.get? "kind" members with
  | none => .error (.missingField "kind")
  | some (.string tag) => Kind.ofTag tag
  | some j => .error (.invalidType j.found "variant identifier")

/-- An action is read by its `kind` first, and then by the members that this kind has. -/
def ofJson (j : Json) : Except Mismatch Action := do
  let members ← j.members "internally tagged enum Action"
  match ← Kind.ofMembers members with
  | .register =>
      let payload ← members.foldlM Payload.read {}
      let call ← Json.required "call" payload.call
      let objectName ← Json.required "object_name" payload.objectName
      let options ← Json.required "options" payload.options
      return register call objectName options
  | .incrementInstanceCount => return incrementInstanceCount
  | .decrementLiveInstanceCount => return decrementLiveInstanceCount
  | .recordCreationTime => return recordCreationTime
  | .recordInstanceLifetime => return recordInstanceLifetime
  | .incrementCallCount => return incrementCallCount
  | .recordCallStart => return recordCallStart
  | .recordCallEnd => return recordCallEnd
  | .incrementExceptionExit => return incrementExceptionExit

end Action

/-! ### Bindings and sets -/

namespace Binding

def toJson (b : Binding) : Json :=
  .object [("name", .string b.name), ("target", b.target.toJson), ("phase", b.phase.toJson),
    ("action", b.action.toJson), ("order", .integer b.order.toNat)]

/-- The members of a binding that have been read. -/
structure Draft where
  name : Option String := none
  target : Option Target := none
  phase : Option Phase := none
  action : Option Action := none
  order : Option UInt64 := none

/-- Reads one member of a binding; a member that it does not know is not looked at. -/
def Draft.read (d : Draft) (member : String × Json) : Except Mismatch Draft :=
  match member.1 with
  | "name" => member.2.asString.map fun name => { d with name }
  | "target" => (Target.ofJson member.2).map fun target => { d with target }
  | "phase" => (Phase.ofJson member.2).map fun phase => { d with phase }
  | "action" => (Action.ofJson member.2).map fun action => { d with action }
  | "order" => (member.2.asWord "usize").map fun order => { d with order }
  | _ => .ok d

def ofJson (j : Json) : Except Mismatch Binding := do
  let members ← j.fields "struct Binding" 5
  let draft ← members.foldlM Draft.read {}
  return {
    name := ← Json.required "name" draft.name
    target := ← Json.required "target" draft.target
    phase := ← Json.required "phase" draft.phase
    action := ← Json.required "action" draft.action
    order := ← Json.required "order" draft.order }

end Binding

namespace BindingSet

def toJson (s : BindingSet) : Json :=
  .object [("helper", .string s.helper), ("bindings", .array (s.bindings.map Binding.toJson))]

/-- The members of a binding set that have been read. -/
structure Draft where
  helper : Option String := none
  bindings : Option (List Binding) := none

/-- Reads one member of a set; a member that it does not know is not looked at. -/
def Draft.read (d : Draft) (member : String × Json) : Except Mismatch Draft :=
  match member.1 with
  | "helper" => member.2.asString.map fun helper => { d with helper }
  | "bindings" => do
      let items ← member.2.asArray
      let bindings ← items.mapM Binding.ofJson
      return { d with bindings }
  | _ => .ok d

def ofJson (j : Json) : Except Mismatch BindingSet := do
  let members ← j.fields "struct BindingSet" 2
  let draft ← members.foldlM Draft.read {}
  return {
    helper := ← Json.required "helper" draft.helper
    bindings := ← Json.required "bindings" draft.bindings }

end BindingSet

end Metering
