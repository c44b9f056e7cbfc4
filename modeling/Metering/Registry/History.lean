import Metering.Registry.Basic

/-!
# Registry — History

Runs of a registry: lists of operations, each with the reading of the clock that it takes.  `apply` is one operation
and its outcome, `run` the outcomes of a history and the registry after it.
-/

namespace Metering.Registry

/-- What can be asked of a registry that may change it. -/
inductive Operation where
  | configure (options : RecordOptions)
  | incrementInstances (key : Key)
  | decrementLive (key : Key)
  | recordCreation (key : Key) (id : UInt64)
  | recordLifetime (key : Key) (id : UInt64)
  | incrementCalls (key : Key)
  | recordCallStart (key : Key) (id : UInt64)
  | recordCallEnd (key : Key) (id : UInt64)
  | incrementExceptionExits (key : Key) (id : UInt64)
deriving DecidableEq

/-- What an operation answers. -/
inductive Outcome where
  /-- Whether the options were fixed by it. -/
  | configured (effective : Bool)
  | recorded
  /-- The time that a completion took in. -/
  | completed (time : UInt64)
  /-- The time that an exceptional exit took in, if the call was waiting. -/
  | exited (time : Option UInt64)
  | failed (fault : Fault)
deriving DecidableEq

/-- The outcome of a completion. -/
def Outcome.ofCompletion : Except Fault UInt64 → Outcome
  | .ok time => completed time
  | .error fault => failed fault

/-- The fault of an operation that failed. -/
def Outcome.fault? : Outcome → Option Fault
  | failed fault => some fault
  | _ => none

/-- One operation, at a reading of the clock. -/
def apply (r : Registry) (now : UInt64) : Operation → Outcome × Registry
  | .configure options => (r.configure options).map .configured (fun r => r)
  | .incrementInstances key => (.recorded, r.incrementInstances key)
  | .decrementLive key => (.recorded, r.decrementLive key)
  | .recordCreation _ id => (.recorded, r.recordCreation now id)
  | .recordLifetime key id => (r.recordLifetime now key id).map Outcome.ofCompletion (fun r => r)
  | .incrementCalls key => (.recorded, r.incrementCalls key)
  | .recordCallStart key id => (.recorded, r.recordCallStart now key id)
  | .recordCallEnd key id => (r.recordCallEnd now key id).map Outcome.ofCompletion (fun r => r)
  | .incrementExceptionExits key id => (r.incrementExceptionExits now key id).map .exited (fun r => r)

/-- An operation with the reading of the clock that it takes. -/
structure Event where
  now : UInt64
  operation : Operation
deriving DecidableEq

/-- The outcomes of a history in order, and the registry after it. -/
def run (r : Registry) : List Event → List Outcome × Registry
  | [] => ([], r)
  | event :: rest =>
      let (outcome, r) := r.apply event.now event.operation
      let (outcomes, r) := run r rest
      (outcome :: outcomes, r)

theorem run_append (r : Registry) (before after : List Event) :
    r.run (before ++ after) =
      ((r.run before).1 ++ ((r.run before).2.run after).1, ((r.run before).2.run after).2) := by
  induction before generalizing r with
  | nil => rfl
  | cons event rest ih => simp [run, ih]

end Metering.Registry
