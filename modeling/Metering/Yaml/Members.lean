import Metering.Yaml.Document
import Metering.Yaml.Resolution

/-!
# Yaml — Members

Reading values out of a YAML document.  The members of a mapping are read in the order of the text; each must be
known and come once.  What does not fit is reported with the path of its place, and a place where the text breaks off
cannot be read at all.
-/

namespace Metering.Yaml

/-- Why a value cannot be read from a document. -/
inductive Refusal where
  /-- The text is no YAML, or more than one document. -/
  | unreadable
  /-- The document has another shape at the place with that path. -/
  | mismatch (path : List String) (mismatch : Mismatch)
deriving DecidableEq

namespace Refusal

/-- The refusal of a part, as one of the whole that has it under `name`. -/
def under (name : String) : Refusal → Refusal
  | unreadable => unreadable
  | mismatch path m => mismatch (name :: path) m

/-- The wording of a refusal. -/
def message : Refusal → String
  | unreadable => "invalid yaml"
  | mismatch path m =>
      let place := if path = [] then "" else ".".intercalate path ++ ": "
      "invalid yaml: " ++ place ++ mismatchMessage m

end Refusal

namespace Document

variable {β : Type}

/-- The refusal of a node that is not what was expected. -/
def refuse (expected : String) : Node → Refusal
  | .scalar text style tag => .mismatch [] (scalarMismatch text style tag expected)
  | .sequence _ => .mismatch [] (.invalidType .sequence expected)
  | .mapping _ => .mismatch [] (.invalidType .map expected)
  | .alias _ | .broken => .unreadable

/-- The text of a scalar, whatever its form. -/
def readText (expected : String) (d : Document) (n : Node) : Except Refusal String :=
  match d.resolve n with
  | .scalar text _ _ => .ok text
  | other => .error (refuse expected other)

def readString (d : Document) (n : Node) : Except Refusal String := d.readText "a string" n

def readBool (d : Document) (n : Node) : Except Refusal Bool :=
  match d.resolve n with
  | .scalar text style tag =>
      match if mayBe boolTag style tag then asBoolean text else none with
      | some b => .ok b
      | none => .error (refuse "a boolean" (.scalar text style tag))
  | other => .error (refuse "a boolean" other)

/-- A whole number below `2 ^ 32`. -/
def readWord (d : Document) (n : Node) : Except Refusal UInt32 :=
  match d.resolve n with
  | .scalar text style tag =>
      match if mayBe intTag style tag then unsigned UInt64.size text else none with
      | some n =>
          if n < UInt32.size then .ok (.ofNat n)
          else .error (.mismatch [] (.invalidValue (.integer n) "u32"))
      | none => .error (refuse "u32" (.scalar text style tag))
  | other => .error (refuse "u32" other)

/-- The name by which a path shows the member with that key. -/
def pathName (key : Node) (name : String) : String :=
  match key with
  | .alias _ => "?"
  | _ => name

/-- Reads members, after those that have been read already. -/
def readMembersFrom (d : Document) (names : List String)
    (readValue : String → Node → Except Refusal β) :
    List (String × β) → List (Node × Node) → Except Refusal (List (String × β))
  | read, [] => .ok read.reverse
  | read, (key, value) :: rest => do
      let name ← d.readText "field identifier" key
      if name ∉ names then .error (.mismatch [] (.unknownField name names))
      else if read.any fun m => m.1 = name then .error (.mismatch [] (.duplicateField name))
      else
        let b ← (readValue name value).mapError (Refusal.under (pathName key name))
        readMembersFrom d names readValue ((name, b) :: read) rest

/-- Reads the members of a mapping.  A node that is left empty is a mapping without members. -/
def readMembers (d : Document) (expected : String) (names : List String)
    (readValue : String → Node → Except Refusal β) (n : Node) :
    Except Refusal (List (String × β)) :=
  match d.resolve n with
  | .mapping members => d.readMembersFrom names readValue [] members
  | .scalar "" .plain _ => .ok []
  | other => .error (refuse expected other)

/-- Reads the members of the root.  A document without a root is a mapping without members. -/
def readRoot (d : Document) (expected : String) (names : List String)
    (readValue : String → Node → Except Refusal β) : Except Refusal (List (String × β)) :=
  match d.root with
  | none => .ok []
  | some root => d.readMembers expected names readValue root

end Document

end Metering.Yaml
