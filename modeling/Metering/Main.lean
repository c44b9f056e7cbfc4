import Metering.Command

/-!
# Main

The command line: `proftool [config.yaml]`.
-/

namespace Metering.Host

/-- The number of an error; some calls give it negated. -/
def errorNumber (code : UInt32) : Nat :=
  if code < 0x80000000 then code.toNat else (0 - code).toNat

/-- The wording of a failure of the system. -/
def failure (e : IO.Error) : String :=
  match e with
  | .noFileOrDirectory .. => FileError.notFound.message
  | .resourceBusy .. => FileError.busy.message
  | .permissionDenied .. => "Permission denied (os error 13)"
  | .inappropriateType _ code _ =>
      (if errorNumber code = 20 then FileError.notDirectory else .isDirectory).message
  | .invalidArgument _ code _ =>
      if errorNumber code = 36 then FileError.nameTooLong.message else toString e
  | _ => toString e

/-- Does something that may fail. -/
def attempt {α : Type} (action : IO α) : IO (Except String α) := do
  try return .ok (← action)
  catch e => return .error (failure e)

/-- Does something with a path, which may hold no NUL. -/
def withPath {α : Type} (path : String) (action : IO α) : IO (Except String α) :=
  if path.contains '\x00' then return .error FileError.holdsNul.message
  else attempt action

/-- The files of the system. -/
def files : Files IO where
  read path := withPath path (IO.FS.readBinFile path)
  write path contents := withPath path (IO.FS.writeBinFile path contents)

end Metering.Host

open Metering

def main (args : List String) : IO UInt32 := do
  let outcome ← Command.run Host.files args
  if let .error fault := outcome then IO.eprintln (Command.complaint fault)
  return Command.exitCode outcome
