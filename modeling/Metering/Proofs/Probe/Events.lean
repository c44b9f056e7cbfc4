import Metering.Proofs.Probe.Asked
import Metering.Proofs.Registry.Entries

/-!
# Proofs — Probe — Events

The history of a registry that firings amount to.  Each binding is at most one event of the registry that its probe
reports to, at the reading of the clock that the binding takes; a registration is an attempt to fix the options, since
its name is taken only after the options were fixed (`Settled`).  So the registry after firings is the registry after
their events (`registry_run`), and what is known of histories is known of firings.
-/

namespace Metering.Probe
open Registry

/-- What an action asks of the registry at a target.  A registration under a name that is none asks for nothing. -/
def asks (target : Target) (inv : Invocation) : Action → Option Operation
  | .register _ name options =>
      match ObjectName.validate name with
      | .ok () => some (.configure options)
      | .error _ => none
  | action => operation target inv action

/-- A registration under a proper name asks for the options to be fixed. -/
theorem asks_register {name : String} (valid : ObjectName.validate name = .ok ()) (target : Target)
    (inv : Invocation) (call : String) (options : RecordOptions) :
    asks target inv (.register call name options) = some (.configure options) := by
  simp only [asks, valid]

/-- An action that registers nothing asks for its operation. -/
theorem asks_of_operation {target : Target} {inv : Invocation} {action : Action} {op : Operation}
    (h : operation target inv action = some op) : asks target inv action = some op := by
  cases action with
  | register => cases h
  | _ => exact h

/-- The events of bindings that run one after another. -/
def eventsOf (inv : Invocation) (clock : Nat → UInt64) : List Binding → List Event
  | [] => []
  | b :: rest =>
      ((asks b.target inv b.action).map fun op => ⟨clock 0, op⟩).toList ++
        eventsOf inv (fun n => clock (n + 1)) rest

/-- The events of a firing. -/
def events (p : Probe) (f : Firing) : List Event :=
  eventsOf f.invocation f.clock (p.bindingsAt f.point)

/-- A registry has its options as soon as a name is taken. -/
def Settled (number : Nat) (site : Site) : Prop :=
  ∀ name, site.directory.contains name = true → (site.registry number).fixed ≠ none

theorem settled_new (number : Nat) : Settled number {} := fun name h => by cases h

/-- Options that are fixed stay. -/
theorem fixed_ne_none {r : Registry} (h : r.fixed ≠ none) (now : UInt64) (op : Operation) :
    (r.apply now op).2.fixed ≠ none := by
  rw [fixed_apply]
  obtain ⟨options, ho⟩ := Option.ne_none_iff_exists'.mp h
  rw [ho, Option.some_or]
  exact Option.some_ne_none options

/-- After an attempt to fix them, options are fixed. -/
theorem fixed_configure_ne_none (r : Registry) (options : RecordOptions) :
    (r.configure options).2.fixed ≠ none := by
  have step : (r.configure options).2.fixed = r.fixed.or (some options) :=
    r.fixed_apply 0 (.configure options)
  rw [step]
  cases r.fixed <;> exact Option.some_ne_none _

/-- Options that are fixed are not fixed again. -/
theorem configure_of_fixed {r : Registry} (h : r.fixed ≠ none) (options : RecordOptions) :
    (r.configure options).2 = r := by
  obtain ⟨held, ho⟩ := Option.ne_none_iff_exists'.mp h
  rw [configure, ho]

/-- **A registration.**  It tries to fix the options, unless its name is none. -/
theorem registry_register {number : Nat} {site : Site} (h : Settled number site) (name : String)
    (options : RecordOptions) :
    ((site.register name number options).2.registry number =
        match ObjectName.validate name with
        | .ok () => ((site.registry number).configure options).2
        | .error _ => site.registry number) ∧
      Settled number (site.register name number options).2 := by
  by_cases free : site.Free name
  · rw [Site.registry_register_of_free free, free.1]
    refine ⟨rfl, fun _ _ => ?_⟩
    rw [Site.registry_register_of_free free]
    exact fixed_configure_ne_none _ options
  · rw [Site.register_of_not_free free]
    refine ⟨?_, h⟩
    cases proper : ObjectName.validate name with
    | error fault => rfl
    | ok =>
        have taken : site.directory.contains name = true := by
          rw [Site.contains_directory, Option.isSome_iff_ne_none]
          exact fun none => free ⟨proper, none⟩
        exact (configure_of_fixed (h name taken) options).symm

/-- **One binding.** -/
theorem registry_runBinding {number : Nat} {site : Site} (h : Settled number site) (b : Binding)
    (inv : Invocation) (now : UInt64) :
    (runBinding number b inv now site).2.registry number =
        ((site.registry number).run
          ((asks b.target inv b.action).map fun op => ⟨now, op⟩).toList).2 ∧
      Settled number (runBinding number b inv now site).2 := by
  cases ha : operation b.target inv b.action with
  | some op =>
      rw [runBinding_eq ha, asks_of_operation ha, Site.registry_apply]
      refine ⟨rfl, fun name taken => ?_⟩
      rw [Site.registry_apply]
      rw [Site.directory_apply] at taken
      exact fixed_ne_none (h name taken) now op
  | none =>
      obtain ⟨name, target, phase, action, order⟩ := b
      cases action with
      | register call objectName options =>
          obtain ⟨same, settled⟩ := registry_register h objectName options
          refine ⟨same.trans ?_, settled⟩
          dsimp only [asks]
          cases ObjectName.validate objectName <;> rfl
      | _ => cases ha

theorem registry_runBindings {number : Nat} (inv : Invocation) (bs : List Binding) {site : Site}
    (h : Settled number site) (clock : Nat → UInt64) :
    (runBindings number inv clock bs site).registry number =
        ((site.registry number).run (eventsOf inv clock bs)).2 ∧
      Settled number (runBindings number inv clock bs site) := by
  induction bs generalizing site clock with
  | nil => exact ⟨rfl, h⟩
  | cons b rest ih =>
      obtain ⟨same, settled⟩ := registry_runBinding h b inv (clock 0)
      rw [eventsOf, Registry.run_append, ← same]
      exact ih settled fun n => clock (n + 1)

/-- **All firings.**  The registry after firings is the one after their events. -/
theorem registry_run (p : Probe) (fs : List Firing) {site : Site} (h : Settled p.registry site) :
    (p.run site fs).registry p.registry =
      ((site.registry p.registry).run (fs.flatMap p.events)).2 := by
  induction fs generalizing site with
  | nil => rfl
  | cons f rest ih =>
      obtain ⟨same, settled⟩ :=
        registry_runBindings f.invocation (p.bindingsAt f.point) h f.clock
      rw [List.flatMap_cons, Registry.run_append]
      exact (ih settled).trans (congrArg (fun r => (r.run (rest.flatMap p.events)).2) same)

/-- The same from a site where nothing has happened. -/
theorem registry_run_new (p : Probe) (fs : List Firing) :
    (p.run {} fs).registry p.registry = (empty.run (fs.flatMap p.events)).2 :=
  p.registry_run fs (settled_new p.registry)

end Metering.Probe
