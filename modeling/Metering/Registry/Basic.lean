import Metering.Fault
import Metering.Features
import Metering.Registry.Counters
import Metering.Registry.Pending
import Metering.Registry.Timing

/-!
# Registry — Basic

What instrumented code has reported so far: counters and times by key, and the starts still waiting.  Operations that
complete something take the clock's reading and the waiting start, and answer with the time since that start, or with a
fault if none waits.  Then nothing has changed (`recordLifetime_of_missing`, `finishCall_of_missing`).
-/

namespace Metering

/-- The statistics of a process, and what is needed to go on with them. -/
structure Registry where
  /-- The optional statistics to keep, once they are fixed. -/
  fixed : Option RecordOptions := none
  instances : Counters := .empty
  /-- Instances that have ended. -/
  finished : Counters := .empty
  lifetimes : Timings := .empty
  calls : Counters := .empty
  execTimes : Timings := .empty
  exceptionExits : Counters := .empty
  /-- Creations waiting for the end of the object's life. -/
  births : Pending UInt64 := .empty
  /-- Calls waiting for their end; a call is told by its operation and a number. -/
  callStarts : Pending (Key × UInt64) := .empty
deriving DecidableEq

/-- The families of statistics that have keys of their own. -/
inductive Category where
  | instances
  | lifetimes
  | calls
  | execTimes
  | exceptionExits
deriving DecidableEq

namespace Registry

/-- A registry to which nothing was reported. -/
def empty : Registry := {}

instance : Inhabited Registry := ⟨empty⟩

/-! ### Options -/

/-- Fixes the optional statistics, and tells whether they were not fixed before. -/
def configure (r : Registry) (options : RecordOptions) : Bool × Registry :=
  match r.fixed with
  | some _ => (false, r)
  | none => (true, { r with fixed := some options })

/-- The optional statistics that are kept: none until they are fixed. -/
def options (r : Registry) : RecordOptions := r.fixed.getD {}

/-! ### Instances -/

def incrementInstances (r : Registry) (key : Key) : Registry :=
  { r with instances := r.instances.increment key }

def decrementLive (r : Registry) (key : Key) : Registry :=
  { r with finished := r.finished.increment key }

/-- Notes when an object was created.  A creation that was still waiting under its number is forgotten. -/
def recordCreation (r : Registry) (now : UInt64) (id : UInt64) : Registry :=
  { r with births := (r.births.start id now).2 }

/-- The time from one reading of the clock to another, zero if the clock went back. -/
def elapsed (start now : UInt64) : UInt64 := if start ≤ now then now - start else 0

/-- The fault of a completion without a start. -/
def miss (key : Key) (id : UInt64) : Fault := .correlationMiss key.text id

/-- Ends the life of an object that was created. -/
def recordLifetime (r : Registry) (now : UInt64) (key : Key) (id : UInt64) :
    Except Fault UInt64 × Registry :=
  match r.births.take id with
  | (none, births) => (.error (miss key id), { r with births })
  | (some born, births) =>
      let time := elapsed born now
      let lifetimes := r.lifetimes.observe key time r.options.lifetimeMin r.options.lifetimeMax
      (.ok time, { r with births, lifetimes, finished := r.finished.increment key })

/-- Without a creation nothing changes. -/
theorem recordLifetime_of_missing {r : Registry} {id : UInt64} (h : r.births.get? id = none)
    (now : UInt64) (key : Key) : r.recordLifetime now key id = (.error (miss key id), r) := by
  rw [recordLifetime, Pending.take_of_missing h]

/-! ### Calls -/

def incrementCalls (r : Registry) (key : Key) : Registry :=
  { r with calls := r.calls.increment key }

/-- Notes when a call began.  A call that was still waiting under its number is forgotten. -/
def recordCallStart (r : Registry) (now : UInt64) (key : Key) (id : UInt64) : Registry :=
  { r with callStarts := (r.callStarts.start (key, id) now).2 }

/-- Takes in the time of a call that was waiting, if it was. -/
def finishCall (r : Registry) (now : UInt64) (key : Key) (id : UInt64) : Option UInt64 × Registry :=
  match r.callStarts.take (key, id) with
  | (none, callStarts) => (none, { r with callStarts })
  | (some started, callStarts) =>
      let time := elapsed started now
      let execTimes := r.execTimes.observe key time r.options.execTimeMin r.options.execTimeMax
      (some time, { r with callStarts, execTimes })

/-- Without a start nothing changes. -/
theorem finishCall_of_missing {r : Registry} {key : Key} {id : UInt64}
    (h : r.callStarts.get? (key, id) = none) (now : UInt64) :
    r.finishCall now key id = (none, r) := by
  rw [finishCall, Pending.take_of_missing h]

/-- Ends a call that began. -/
def recordCallEnd (r : Registry) (now : UInt64) (key : Key) (id : UInt64) :
    Except Fault UInt64 × Registry :=
  match r.finishCall now key id with
  | (some time, r) => (.ok time, r)
  | (none, r) => (.error (miss key id), r)

/-- Counts an exceptional exit, and ends the call if it was waiting. -/
def incrementExceptionExits (r : Registry) (now : UInt64) (key : Key) (id : UInt64) :
    Option UInt64 × Registry :=
  { r with exceptionExits := r.exceptionExits.increment key }.finishCall now key id

/-! ### Reading -/

/-- The keys of a family, oldest first. -/
def keys (r : Registry) : Category → List Key
  | .instances => r.instances.keys
  | .lifetimes => r.lifetimes.keys
  | .calls => r.calls.keys
  | .execTimes => r.execTimes.keys
  | .exceptionExits => r.exceptionExits.keys

def contains (r : Registry) (category : Category) (key : Key) : Bool :=
  match category with
  | .instances => r.instances.contains key
  | .lifetimes => r.lifetimes.contains key
  | .calls => r.calls.contains key
  | .execTimes => r.execTimes.contains key
  | .exceptionExits => r.exceptionExits.contains key

theorem mem_keys_iff {r : Registry} {category : Category} {key : Key} :
    key ∈ r.keys category ↔ r.contains category key = true := by
  cases category <;> exact Table.mem_keys_iff

theorem nodup_keys (r : Registry) (category : Category) : (r.keys category).Nodup := by
  cases category <;> exact Table.nodup_keys _

/-- The least signed word of 64 bits. -/
def leastSigned : Int := -0x8000000000000000

/-- The greatest signed word of 64 bits. -/
def greatestSigned : Int := 0x7fffffffffffffff

def instanceTotal (r : Registry) (key : Key) : UInt64 := r.instances.total key

/-- Instances less those that have ended, in signed words: each total is read as a signed word first, and the
difference stops at the least and the greatest one. -/
def instanceLive (r : Registry) (key : Key) : Int :=
  let difference := (r.instances.total key).toInt64.toInt - (r.finished.total key).toInt64.toInt
  max leastSigned (min difference greatestSigned)

def lifetime? (r : Registry) (key : Key) : Option Timing := r.lifetimes.get? key

def callCount (r : Registry) (key : Key) : UInt64 := r.calls.total key

def execTime? (r : Registry) (key : Key) : Option Timing := r.execTimes.get? key

def exceptionExitCount (r : Registry) (key : Key) : UInt64 := r.exceptionExits.total key

/-- How many creations are waiting. -/
def pendingCreations (r : Registry) : Nat := r.births.size

/-- How many calls are waiting. -/
def pendingCalls (r : Registry) : Nat := r.callStarts.size

end Registry

end Metering
