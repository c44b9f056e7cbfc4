import Metering.ObjectName
import Metering.Registry.History

/-!
# Site

The registries of a process and the directory in which they are published under object names.  A name is given once
and for all; taking it fixes the options of the registry, if they were not fixed before.  `run` is a history of a
site.
-/

namespace Metering

/-- Registries by number, all of them empty at first, and the numbers of those that are published by name. -/
structure Site where
  registries : Nat → Registry := fun _ => .empty
  directory : Table String Nat := .empty

namespace Site

def registry (s : Site) (number : Nat) : Registry := s.registries number

def setRegistry (s : Site) (number : Nat) (r : Registry) : Site :=
  { s with registries := fun n => if n = number then r else s.registries n }

/-- Publishes a registry under a name, and tells whether the name was free. -/
def register (s : Site) (name : String) (number : Nat) (options : RecordOptions) :
    Except Fault Bool × Site :=
  match ObjectName.validate name with
  | .error fault => (.error fault, s)
  | .ok () =>
      if s.directory.contains name then (.ok false, s)
      else
        let configured := ((s.registry number).configure options).2
        (.ok true, { s.setRegistry number configured with
          directory := s.directory.insert name number })

/-- The number of the registry that is published under a name. -/
def lookup (s : Site) (name : String) : Option Nat := s.directory.get? name

def isRegistered (s : Site) (name : String) : Bool := s.directory.contains name

/-- The names that are taken, in ascending order. -/
def names (s : Site) : List String :=
  s.directory.keys.mergeSort fun a b => !decide (b < a)

/-- An operation on one registry, at a reading of the clock. -/
def apply (s : Site) (number : Nat) (now : UInt64) (operation : Registry.Operation) :
    Registry.Outcome × Site :=
  let (outcome, r) := (s.registry number).apply now operation
  (outcome, s.setRegistry number r)

/-! ### Histories -/

/-- What can happen at a site. -/
inductive Event where
  | register (name : String) (number : Nat) (options : RecordOptions)
  | operate (number : Nat) (now : UInt64) (operation : Registry.Operation)
deriving DecidableEq

/-- The answer to an event. -/
inductive Answer where
  | registered (result : Except Fault Bool)
  | operated (outcome : Registry.Outcome)

def step (s : Site) : Event → Answer × Site
  | .register name number options => (s.register name number options).map .registered (fun s => s)
  | .operate number now operation => (s.apply number now operation).map .operated (fun s => s)

/-- The answers to a history in order, and the site after it. -/
def run (s : Site) : List Event → List Answer × Site
  | [] => ([], s)
  | event :: rest =>
      let (answer, s) := s.step event
      let (answers, s) := run s rest
      (answer :: answers, s)

@[simp] theorem registry_setRegistry_self (s : Site) (number : Nat) (r : Registry) :
    (s.setRegistry number r).registry number = r := by
  simp [registry, setRegistry]

theorem registry_setRegistry_of_ne (s : Site) {number other : Nat} (r : Registry)
    (h : number ≠ other) : (s.setRegistry number r).registry other = s.registry other := by
  simp [registry, setRegistry, Ne.symm h]

/-- Putting back the registry that is there changes nothing. -/
theorem setRegistry_registry (s : Site) (number : Nat) :
    s.setRegistry number (s.registry number) = s := by
  have same : (fun n => if n = number then s.registries number else s.registries n) = s.registries := by
    funext n
    by_cases own : n = number
    · rw [if_pos own, own]
    · rw [if_neg own]
  rw [setRegistry, registry, same]

end Site

end Metering
