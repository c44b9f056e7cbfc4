import Metering.Proofs.Registry.Steps
import Metering.Site

/-!
# Proofs — Site — Steps

What one event makes of a site.  An operation acts on one registry and leaves the directory alone (`registry_apply`,
`directory_apply`).  A registration gives its name away if the name is proper and free, and fixes the options of its
registry, unless they are fixed, in the same step (`register_of_free`); otherwise nothing changes
(`register_of_not_free`).  An event that answers with a fault changes nothing (`apply_of_failed`, `register_of_error`).
-/

namespace Metering.Site

/-! ### Operations -/

/-- An operation on a registry does to it what the operation does. -/
theorem registry_apply (s : Site) (number : Nat) (now : UInt64) (op : Registry.Operation) :
    (s.apply number now op).2.registry number = ((s.registry number).apply now op).2 :=
  s.registry_setRegistry_self number _

/-- It does nothing to the others. -/
theorem registry_apply_of_ne (s : Site) {number other : Nat} (h : number ≠ other) (now : UInt64)
    (op : Registry.Operation) :
    (s.apply number now op).2.registry other = s.registry other :=
  s.registry_setRegistry_of_ne _ h

/-- And it answers what the operation answers. -/
theorem outcome_apply (s : Site) (number : Nat) (now : UInt64) (op : Registry.Operation) :
    (s.apply number now op).1 = ((s.registry number).apply now op).1 :=
  rfl

theorem directory_apply (s : Site) (number : Nat) (now : UInt64) (op : Registry.Operation) :
    (s.apply number now op).2.directory = s.directory :=
  rfl

/-- An operation that fails changes nothing: it leaves its registry as it was, and this one is put back. -/
theorem apply_of_failed {s : Site} {number : Nat} {now : UInt64} {op : Registry.Operation}
    {fault : Fault} (h : (s.apply number now op).1 = .failed fault) :
    (s.apply number now op).2 = s := by
  have kept : ((s.registry number).apply now op).2 = s.registry number := Registry.apply_of_failed h
  change s.setRegistry number ((s.registry number).apply now op).2 = s
  rw [kept, setRegistry_registry]

/-! ### Registrations -/

/-- A name can be taken: it is proper, and no registry is published under it. -/
def Free (s : Site) (name : String) : Prop :=
  ObjectName.validate name = .ok () ∧ s.lookup name = none

theorem contains_directory (s : Site) (name : String) :
    s.directory.contains name = (s.lookup name).isSome := rfl

/-- The answer to a registration tells whether its name was free. -/
theorem answer_register (s : Site) (name : String) (number : Nat) (options : RecordOptions) :
    (s.register name number options).1 =
      (ObjectName.validate name).map fun _ => (s.lookup name).isNone := by
  rw [register, contains_directory]
  cases ObjectName.validate name with
  | error fault => rfl
  | ok => cases s.lookup name <;> rfl

/-- A free name is given to the registry, whose options are fixed from then on. -/
theorem register_of_free {s : Site} {name : String} (h : s.Free name) (number : Nat)
    (options : RecordOptions) :
    (s.register name number options).2 =
      { s.setRegistry number ((s.registry number).configure options).2 with
        directory := s.directory.insert name number } := by
  rw [register, contains_directory, h.1, h.2]
  rfl

theorem registry_register_of_free {s : Site} {name : String} (h : s.Free name) (number : Nat)
    (options : RecordOptions) :
    (s.register name number options).2.registry number =
      ((s.registry number).configure options).2 := by
  rw [register_of_free h]
  exact registry_setRegistry_self s number _

/-- Where the name is not free nothing changes. -/
theorem register_of_not_free {s : Site} {name : String} (h : ¬ s.Free name) (number : Nat)
    (options : RecordOptions) : (s.register name number options).2 = s := by
  rw [register, contains_directory]
  cases proper : ObjectName.validate name with
  | error fault => rfl
  | ok =>
      cases held : s.lookup name with
      | none => exact absurd ⟨proper, held⟩ h
      | some other => rfl

/-- A registration fixes the options of its registry, or leaves it alone. -/
theorem registry_register (s : Site) (name : String) (number : Nat) (options : RecordOptions) :
    (s.register name number options).2.registry number = s.registry number ∨
      (s.register name number options).2.registry number =
        ((s.registry number).configure options).2 := by
  by_cases free : s.Free name
  · exact .inr (registry_register_of_free free number options)
  · rw [register_of_not_free free]
    exact .inl rfl

/-- It does nothing to the others. -/
theorem registry_register_of_ne (s : Site) (name : String) {number other : Nat}
    (h : number ≠ other) (options : RecordOptions) :
    (s.register name number options).2.registry other = s.registry other := by
  by_cases free : s.Free name
  · rw [register_of_free free]
    exact registry_setRegistry_of_ne s _ h
  · rw [register_of_not_free free]

/-- A registration that fails changes nothing. -/
theorem register_of_error {s : Site} {name : String} {number : Nat} {options : RecordOptions}
    {fault : Fault} (h : (s.register name number options).1 = .error fault) :
    (s.register name number options).2 = s := by
  refine register_of_not_free (fun free => ?_) number options
  rw [answer_register, free.1] at h
  cases h

end Metering.Site
