/-!
# Fault

What can go wrong while bindings are compiled, statistics are recorded or read, and files are used.  Every fault has
a stable code and a message for people.
-/

namespace Metering

inductive Fault where
  /-- A line of a target list is malformed. -/
  | inputFormat (line : Nat) (reason : String)
  /-- No attribute of that name can be derived at present. -/
  | unknownAttribute (name : String)
  /-- A completion came without a start. -/
  | correlationMiss (key : String) (id : UInt64)
  /-- A name is not of the form `domain:key=value`. -/
  | invalidObjectName (reason : String)
  /-- A configuration is refused. -/
  | config (reason : String)
  /-- A configuration is of a version that is not understood. -/
  | unsupportedVersion
  /-- A file cannot be read or written. -/
  | io (reason : String)
deriving DecidableEq

namespace Fault

/-- The stable code of a fault. -/
def code : Fault → String
  | inputFormat .. => "INPUT_FORMAT"
  | unknownAttribute .. => "UNKNOWN_ATTRIBUTE"
  | correlationMiss .. => "CORRELATION_MISS"
  | invalidObjectName .. => "INVALID_OBJECT_NAME"
  | config .. => "CONFIG"
  | unsupportedVersion => "UNSUPPORTED_VERSION"
  | io .. => "IO"

/-- The wording of a fault. -/
def message : Fault → String
  | inputFormat line reason => "line " ++ toString line ++ ": " ++ reason
  | unknownAttribute name => "attribute not found: " ++ name
  | correlationMiss key id =>
      "no start recorded for " ++ key ++ " (correlation id " ++ toString id ++ ")"
  | invalidObjectName reason => "invalid object name: " ++ reason
  | config reason => "config: " ++ reason
  | unsupportedVersion => "unsupported config version"
  | io reason => "io: " ++ reason

end Fault

end Metering
