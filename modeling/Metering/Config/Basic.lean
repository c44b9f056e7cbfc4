import Metering.Compiler
import Metering.ObjectName

/-!
# Config — Basic

What a run of the compiler is told: its files and the operations it looks for, the registration, and the features.
Everything but the version has a default.  `validate` names the first thing that is wrong.
-/

namespace Metering

namespace Config

/-- The files of a run, the helper of its bindings, and the operations between which instances live. -/
structure CompilerSection where
  inputFile : String := "targets.txt"
  outputFile : String := "rules.json"
  helper : String := "proftool_agent::probe::Probe"
  constructor : String := "<init>"
  lifecycleMethod : String := "run"
deriving DecidableEq

/-- Where and under which name the statistics are published. -/
structure RegistrationSection where
  entity : String := "proftool.ProfTool"
  operation : String := "main"
  action : String := "registerMBean"
  objectName : String := "proftool:type=Statistics"
deriving DecidableEq

end Config

/-- The configuration of a run. -/
structure Config where
  version : UInt32
  compiler : Config.CompilerSection := {}
  registration : Config.RegistrationSection := {}
  features : Features := {}
deriving DecidableEq

namespace Config

/-- The first of the texts that is blank, by its name. -/
def firstBlank (texts : List (String × String)) : Option String :=
  (texts.find? fun t => Text.isBlank t.2).map (·.1)

/-- No text may be blank, and the output must not have the name of the input. -/
def CompilerSection.validate (s : CompilerSection) : Except Fault Unit :=
  match firstBlank [("compiler.input_file", s.inputFile), ("compiler.output_file", s.outputFile),
      ("compiler.helper", s.helper), ("compiler.constructor", s.constructor),
      ("compiler.lifecycle_method", s.lifecycleMethod)] with
  | some field => .error (.config (field ++ " must not be empty"))
  | none =>
      if s.inputFile = s.outputFile then
        .error (.config "compiler.output_file must differ from compiler.input_file")
      else .ok ()

/-- No text may be empty, and the object name must have its form. -/
def RegistrationSection.validate (s : RegistrationSection) : Except Fault Unit :=
  if s.entity = "" ∨ s.operation = "" ∨ s.action = "" then
    .error (.config "registration.entity, operation and action must not be empty")
  else
    (ObjectName.validate s.objectName).mapError fun fault =>
      .config ("registration.object_name: " ++ fault.message)

/-- Only version 1 is understood; its sections are looked at in order. -/
def validate (c : Config) : Except Fault Unit := do
  if c.version ≠ 1 then .error .unsupportedVersion
  c.compiler.validate
  c.registration.validate

/-- The compiler that a configuration asks for. -/
def toCompiler (c : Config) : Compiler :=
  .new c.features
    { helper := c.compiler.helper
      entity := c.registration.entity
      operation := c.registration.operation
      action := c.registration.action
      objectName := c.registration.objectName }
    { constructor := c.compiler.constructor
      completion := c.compiler.lifecycleMethod }

end Config

end Metering
