import Metering.Config.Basic
import Metering.Yaml.Members

/-!
# Config — Load

Reading a configuration from YAML.  The document must have the shape of a configuration before anything is looked at
for its meaning: what does not fit comes first, in the order of the text, then the end of the text, then what
`Config.validate` finds.
-/

namespace Metering.Config

open Yaml (Document Node Refusal)

def names : List String := ["version", "compiler", "registration", "features"]

def CompilerSection.names : List String :=
  ["input_file", "output_file", "helper", "constructor", "lifecycle_method"]

def RegistrationSection.names : List String := ["entity", "operation", "action", "object_name"]

/-- The value of a member that was read. -/
def member {β : Type} (members : List (String × β)) (name : String) : Option β :=
  (members.find? fun m => m.1 = name).map (·.2)

/-- The section with the given members, and the defaults for the others. -/
def CompilerSection.ofMembers (members : List (String × String)) : CompilerSection :=
  let default : CompilerSection := {}
  let text (name : String) (default : String) : String := (member members name).getD default
  { inputFile := text "input_file" default.inputFile
    outputFile := text "output_file" default.outputFile
    helper := text "helper" default.helper
    constructor := text "constructor" default.constructor
    lifecycleMethod := text "lifecycle_method" default.lifecycleMethod }

/-- The section with the given members, and the defaults for the others. -/
def RegistrationSection.ofMembers (members : List (String × String)) : RegistrationSection :=
  let default : RegistrationSection := {}
  let text (name : String) (default : String) : String := (member members name).getD default
  { entity := text "entity" default.entity
    operation := text "operation" default.operation
    action := text "action" default.action
    objectName := text "object_name" default.objectName }

/-- One member of a configuration. -/
inductive Part where
  | version (number : UInt32)
  | compiler (s : CompilerSection)
  | registration (s : RegistrationSection)
  | features (f : Features)

/-- Reads the member of that name. -/
def readPart (d : Document) (name : String) (n : Node) : Except Refusal Part :=
  match name with
  | "version" => (d.readWord n).map .version
  | "compiler" =>
      (d.readMembers "struct CompilerSection" CompilerSection.names (fun _ => d.readString) n).map
        fun members => .compiler (.ofMembers members)
  | "registration" =>
      (d.readMembers "struct RegistrationSection" RegistrationSection.names
        (fun _ => d.readString) n).map fun members => .registration (.ofMembers members)
  | _ =>
      (d.readMembers "struct FeatureFlags" Features.names (fun _ => d.readBool) n).map
        fun members => .features (.ofNames fun name => (member members name).getD false)

/-- The configuration with one more of its parts. -/
def withPart (c : Config) : Part → Config
  | .version version => { c with version }
  | .compiler compiler => { c with compiler }
  | .registration registration => { c with registration }
  | .features features => { c with features }

/-- The configuration that a document writes, not validated yet. -/
def ofDocument (d : Document) : Except Refusal Config := do
  let parts ← d.readRoot "struct ProfToolConfig" names (readPart d)
  if (member parts "version").isNone then .error (.mismatch [] (.missingField "version"))
  if !d.sound then .error .unreadable
  return parts.foldl (fun c p => c.withPart p.2) { version := 0 }

/-- The configuration that a text writes, if it is valid. -/
def ofText (text : String) : Except Fault Config := do
  let c ← (ofDocument (.ofText text)).mapError fun refusal => .config refusal.message
  c.validate
  return c

end Metering.Config
