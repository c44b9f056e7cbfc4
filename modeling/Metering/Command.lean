import Metering.Binding.Json
import Metering.Config.Load
import Metering.File.Tree
import Metering.Json.Printer

/-!
# Command

What the command does: it loads the configuration, reads the target list, compiles it and writes the bindings.  It is
written for any files that can be read and written (`Files`); `Tree.files` are those of a tree.
-/

namespace Metering

/-- Files that can be read and written; a failure is told by its wording. -/
structure Files (m : Type → Type) where
  read : String → m (Except String ByteArray)
  write : String → ByteArray → m (Except String Unit)

namespace Command

variable {m : Type → Type} [Monad m]

/-- Reads a file as a text. -/
def readText (files : Files m) (path : String) : m (Except String String) := do
  match ← files.read path with
  | .error reason => return .error reason
  | .ok bytes =>
      match Text.ofUtf8? bytes with
      | none => return .error "stream did not contain valid UTF-8"
      | some text => return .ok text

/-- The configuration in a file. -/
def load (files : Files m) (path : String) : m (Except Fault Config) := do
  match ← readText files path with
  | .error reason => return .error (.io ("read config failed: " ++ reason))
  | .ok text => return Config.ofText text

/-- The contents of the file of a binding set. -/
def contents (set : BindingSet) : ByteArray := set.toJson.pretty.toUTF8

/-- Compiles the target list of a configuration and writes the bindings. -/
def compile (files : Files m) (config : Config) : m (Except Fault BindingSet) := do
  let input := config.compiler.inputFile
  let output := config.compiler.outputFile
  match ← readText files input with
  | .error reason => return .error (.io ("read " ++ input ++ " failed: " ++ reason))
  | .ok text =>
      match config.toCompiler.compileText text with
      | .error fault => return .error fault
      | .ok set =>
          match ← files.write output (contents set) with
          | .error reason => return .error (.io ("write " ++ output ++ " failed: " ++ reason))
          | .ok () => return .ok set

/-- The path of the configuration: the first argument, or a default. -/
def configPath (args : List String) : String := args.head?.getD "proftool.yaml"

/-- Loads the configuration that the arguments name, and compiles. -/
def run (files : Files m) (args : List String) : m (Except Fault BindingSet) := do
  match ← load files (configPath args) with
  | .error fault => return .error fault
  | .ok config => compile files config

/-- What the command says of a fault. -/
def complaint (fault : Fault) : String := "proftool error: " ++ fault.message

/-- What the command exits with. -/
def exitCode : Except Fault BindingSet → UInt32
  | .ok _ => 0
  | .error _ => 1

end Command

/-- The files of a tree, which changes as they are written. -/
def Tree.files : Files (StateM Tree) where
  read path := fun t => ((t.read path).mapError FileError.message, t)
  write path contents := fun t =>
    match t.write path contents with
    | .ok t => (.ok (), t)
    | .error e => (.error e.message, t)

end Metering
