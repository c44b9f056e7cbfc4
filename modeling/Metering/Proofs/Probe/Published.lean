import Metering.Proofs.Config.Acceptance
import Metering.Proofs.Probe.Registration

/-!
# Proofs — Probe — Published

How statistics are published.  In a compiled set the registration is the first binding at its point, whatever else
stands there, and no other binding registers anything (`bindingsAt_registrationPoint`, `not_register_elsewhere`).
Bindings that register nothing leave the directory and the options as they are (`kept_runBindings`).  So nothing is
published before the registration point is entered, and then everything at once; a firing there finds the name taken
from then on (`published_run`).
-/

namespace Metering

namespace Compiler
open Probe

variable {f : Features} {r : Registration} {l : Lifecycle} {lines : List String}

/-- All actions but registrations are operations. -/
theorem isSome_operation_iff {target : Target} {inv : Invocation} {a : Action} :
    (operation target inv a).isSome = true ↔ a.kind ≠ .register := by
  cases a <;> simp [operation, Action.kind]

/-- The actions at a point are the registration if it is there, and then some that register nothing. -/
theorem exists_actionsAt_output (h : Readable lines) (point : Point) :
    ∃ wanted, (output f r l lines).actionsAt point =
        (if point = registrationPoint r then [(registrationRule f.normalized r).action] else []) ++ wanted ∧
      ∀ a ∈ wanted, a.kind ≠ .register := by
  have registration := filterMap_registration f.normalized r point some
  rw [List.filterMap_some] at registration
  refine ⟨_, ?_, fun a ha =>
    isSome_operation_iff.mp (@isSome_operation_of_mem f.normalized l lines point ⟨0, 0⟩ a ha)⟩
  rw [actionsAt_output f r l h point, List.append_assoc, registration]
  rfl

/-- **At the registration point** the registration comes first, and nothing else registers anything. -/
theorem bindingsAt_registrationPoint (h : Readable lines) :
    ∃ b rest, (output f r l lines).bindingsAt (registrationPoint r) = b :: rest ∧
      b.action = (registrationRule f.normalized r).action ∧
      ∀ other ∈ rest, other.action.kind ≠ .register := by
  obtain ⟨wanted, actions, others⟩ := exists_actionsAt_output (f := f) (r := r) (l := l) h (registrationPoint r)
  rw [if_pos rfl, List.singleton_append, BindingSet.actionsAt] at actions
  obtain ⟨b, rest, split, first, same⟩ := List.map_eq_cons_iff.mp actions
  exact ⟨b, rest, split, first, fun other ho => others _ (same ▸ List.mem_map_of_mem ho)⟩

/-- Elsewhere nothing registers anything. -/
theorem not_register_elsewhere (h : Readable lines) {point : Point} (elsewhere : point ≠ registrationPoint r) :
    ∀ b ∈ (output f r l lines).bindingsAt point, b.action.kind ≠ .register := by
  obtain ⟨wanted, actions, others⟩ := exists_actionsAt_output (f := f) (r := r) (l := l) h point
  rw [if_neg elsewhere, List.nil_append] at actions
  exact fun b hb => others _ (actions ▸ List.mem_map_of_mem hb)

end Compiler

/-! ### Publication -/

namespace Site

/-- No name is taken, and a registry has no options. -/
structure Unpublished (s : Site) (number : Nat) : Prop where
  directory : s.directory = .empty
  fixed : (s.registry number).fixed = none

/-- One name is taken, by a registry with those options. -/
structure Published (s : Site) (number : Nat) (name : String) (options : RecordOptions) : Prop where
  directory : s.directory = Table.empty.insert name number
  fixed : (s.registry number).fixed = some options

variable {s : Site} {number : Nat} {name : String} {options : RecordOptions}

theorem unpublished_new (number : Nat) : Unpublished {} number := ⟨rfl, rfl⟩

/-- The first registration publishes. -/
theorem Unpublished.register (h : s.Unpublished number) (valid : ObjectName.validate name = .ok ()) :
    (s.register name number options).2.Published number name options := by
  have free : s.Free name := ⟨valid, by rw [lookup, h.directory]; rfl⟩
  refine ⟨?_, ?_⟩
  · rw [register_of_free free, ← h.directory]
  · have step := Registry.fixed_apply (s.registry number) 0 (.configure options)
    rw [h.fixed, Option.none_or] at step
    rw [registry_register_of_free free]
    exact step

/-- A registration of the name that is taken changes nothing. -/
theorem Published.register (h : s.Published number name options) (options' : RecordOptions) :
    (s.register name number options').2 = s := by
  refine register_of_not_free (fun free => ?_) number options'
  have taken := free.2
  rw [lookup, h.directory, Table.get?_insert, if_pos rfl] at taken
  cases taken

end Site

namespace Probe
open Compiler Registry

/-! ### Bindings that register nothing -/

/-- Operations that are asked for fix no options. -/
theorem fixes?_operation {target : Target} {inv : Invocation} {a : Action} {op : Operation}
    (h : operation target inv a = some op) : fixes? op = none := by
  cases a <;> cases h <;> rfl

/-- **Bindings that register nothing** leave the directory and the options as they are. -/
theorem kept_runBindings (number : Nat) (inv : Invocation) {bs : List Binding}
    (h : ∀ b ∈ bs, b.action.kind ≠ .register) (clock : Nat → UInt64) (site : Site) :
    (runBindings number inv clock bs site).directory = site.directory ∧
      ((runBindings number inv clock bs site).registry number).fixed = (site.registry number).fixed := by
  induction bs generalizing clock site with
  | nil => exact ⟨rfl, rfl⟩
  | cons b rest ih =>
      obtain ⟨first, others⟩ := List.forall_mem_cons.mp h
      obtain ⟨op, ho⟩ := Option.isSome_iff_exists.mp (isSome_operation_iff.mpr first)
      obtain ⟨directory, fixed⟩ := ih others (fun n => clock (n + 1)) (runBinding number b inv (clock 0) site).2
      rw [runBindings, directory, fixed, runBinding_eq ho]
      dsimp only
      rw [Site.directory_apply, Site.registry_apply, fixed_apply, fixes?_operation ho, Option.or_none]
      exact ⟨rfl, rfl⟩

/-! ### Firings -/

variable {f : Features} {r : Registration} {l : Lifecycle} {lines : List String} {site : Site}

/-- **A firing elsewhere** leaves the directory and the options as they are. -/
theorem kept_fire (h : Readable lines) (number : Nat) {g : Firing} (elsewhere : g.point ≠ registrationPoint r)
    (site : Site) :
    let after := ((Probe.new (output f r l lines) number).fire g.point g.invocation g.clock site).2
    after.directory = site.directory ∧ (after.registry number).fixed = (site.registry number).fixed := by
  refine kept_runBindings number g.invocation ?_ g.clock site
  rw [bindingsAt_new]
  exact not_register_elsewhere h elsewhere

/-- **A firing at the registration point** registers, and then leaves the directory and the options as they are. -/
theorem registered_fire (h : Readable lines) (number : Nat) {g : Firing} (there : g.point = registrationPoint r)
    (site : Site) :
    let after := ((Probe.new (output f r l lines) number).fire g.point g.invocation g.clock site).2
    let registered := (site.register r.objectName number f.recordOptions).2
    after.directory = registered.directory ∧
      (after.registry number).fixed = (registered.registry number).fixed := by
  obtain ⟨b, rest, split, action, others⟩ := bindingsAt_registrationPoint (f := f) (l := l) (r := r) h
  have first (now : UInt64) : (runBinding number b g.invocation now site).2 =
      (site.register r.objectName number f.recordOptions).2 := by
    unfold runBinding
    rw [action]
    rfl
  have kept := kept_runBindings number g.invocation others (fun n => g.clock (n + 1))
    (runBinding number b g.invocation (g.clock 0) site).2
  rw [first] at kept
  intro after registered
  have step : after = runBindings number g.invocation (fun n => g.clock (n + 1)) rest registered := by
    change runBindings number g.invocation g.clock (bindingsAt _ _) site = _
    rw [bindingsAt_new, there, split, runBindings, first]
  rw [step]
  exact kept

/-- Nothing is published before the registration point is entered. -/
theorem unpublished_run (h : Readable lines) {number : Nat} {fs : List Firing}
    (elsewhere : ∀ g ∈ fs, g.point ≠ registrationPoint r) (fresh : site.Unpublished number) :
    ((Probe.new (output f r l lines) number).run site fs).Unpublished number := by
  induction fs generalizing site with
  | nil => exact fresh
  | cons g rest ih =>
      obtain ⟨first, others⟩ := List.forall_mem_cons.mp elsewhere
      obtain ⟨directory, fixed⟩ := kept_fire (f := f) (l := l) h number first site
      exact ih others ⟨directory.trans fresh.directory, fixed.trans fresh.fixed⟩

/-- The first firing there publishes. -/
theorem published_fire (h : Readable lines) (valid : ObjectName.validate r.objectName = .ok ()) {number : Nat}
    {g : Firing} (there : g.point = registrationPoint r) (fresh : site.Unpublished number) :
    ((Probe.new (output f r l lines) number).fire g.point g.invocation g.clock site).2.Published number
      r.objectName f.recordOptions := by
  obtain ⟨directory, fixed⟩ := registered_fire (f := f) (l := l) h number there site
  have published : Site.Published _ number r.objectName f.recordOptions := fresh.register valid
  exact ⟨directory.trans published.directory, fixed.trans published.fixed⟩

/-- **What is published stays** as it is, whatever fires. -/
theorem published_run (h : Readable lines) {number : Nat} {options : RecordOptions} (fs : List Firing)
    (published : site.Published number r.objectName options) :
    ((Probe.new (output f r l lines) number).run site fs).Published number r.objectName options := by
  induction fs generalizing site with
  | nil => exact published
  | cons g rest ih =>
      by_cases there : g.point = registrationPoint r
      · obtain ⟨directory, fixed⟩ := registered_fire (f := f) (l := l) h number there site
        rw [published.register] at directory fixed
        exact ih ⟨directory.trans published.directory, fixed.trans published.fixed⟩
      · obtain ⟨directory, fixed⟩ := kept_fire (f := f) (l := l) h number there site
        exact ih ⟨directory.trans published.directory, fixed.trans published.fixed⟩

/-- **All firings.**  Nothing is published until the registration point is entered, and everything from then on. -/
theorem published_run_new (h : Readable lines) (valid : ObjectName.validate r.objectName = .ok ()) {number : Nat}
    {before : List Firing} {g : Firing} (elsewhere : ∀ earlier ∈ before, earlier.point ≠ registrationPoint r)
    (there : g.point = registrationPoint r) :
    ((Probe.new (output f r l lines) number).run {} before).Unpublished number ∧
      ∀ later, ((Probe.new (output f r l lines) number).run {} (before ++ g :: later)).Published number
        r.objectName f.recordOptions := by
  have fresh := unpublished_run (f := f) (l := l) h elsewhere (Site.unpublished_new number)
  refine ⟨fresh, fun later => ?_⟩
  rw [run_append, run]
  exact published_run h later (published_fire h valid there fresh)

/-- **Registrations never fail**, since their name is proper. -/
theorem result_register (h : Readable lines) (valid : ObjectName.validate r.objectName = .ok ()) {number : Nat}
    {fs : List Firing} {b : Binding} {result : Except Fault Unit}
    (mem : (b, result) ∈ (Probe.new (output f r l lines) number).results {} fs)
    (registers : b.action.kind = .register) : result = .ok () := by
  obtain ⟨g, -, -, now, site, hb, -, -, rfl⟩ := reaches_of_mem_results Reaches.empty mem
  rw [bindingsAt_new] at hb
  have there : g.point = registrationPoint r := by
    by_contra elsewhere
    exact not_register_elsewhere h elsewhere b hb registers
  obtain ⟨first, rest, split, action, others⟩ := bindingsAt_registrationPoint (f := f) (l := l) (r := r) h
  rw [there, split] at hb
  -- of the bindings at this point only the first registers
  rcases List.mem_cons.mp hb with rfl | later
  · unfold runBinding
    rw [action]
    change (site.register r.objectName _ _).1.map _ = _
    rw [Site.answer_register, valid]
    rfl
  · exact absurd registers (others b later)

end Probe

/-- The point at which a configuration registers. -/
def Config.entryPoint (c : Config) : Point := ⟨⟨c.registration.entity, c.registration.operation⟩, .entry⟩

/-- **Publication.**  Where an accepted configuration compiles a target list, the registration stands first at its
point, with the object name and the options of the features, and it is the only one there.  Nothing is published before
this point is entered.  The first firing there publishes the registry under this name alone and fixes these options, and
whatever fires later leaves both as they are.  No registration ever fails. -/
theorem Probe.published_at_entry {yaml list : String} {c : Config} {set : BindingSet}
    (accepted : Config.ofText yaml = .ok c) (compiled : c.toCompiler.compileText list = .ok set) (number : Nat) :
    (∃ b rest, (Probe.new set number).bindingsAt c.entryPoint = b :: rest ∧
        b.action = .register c.registration.action c.registration.objectName c.features.recordOptions ∧
        ∀ other ∈ rest, other.action.kind ≠ .register) ∧
      (∀ before g, (∀ earlier ∈ before, earlier.point ≠ c.entryPoint) → g.point = c.entryPoint →
        ((Probe.new set number).run {} before).Unpublished number ∧
        ∀ later, ((Probe.new set number).run {} (before ++ g :: later)).Published number
          c.registration.objectName c.features.recordOptions) ∧
      ∀ fs b result, (b, result) ∈ (Probe.new set number).results {} fs → b.action.kind = .register →
        result = .ok () := by
  obtain ⟨-, -, -, registration⟩ := Config.ofText_eq_ok_iff.mp accepted
  obtain ⟨readable, same⟩ := Compiler.readable_of_compile (f := c.features) (r := c.toCompiler.registration)
    (l := c.toCompiler.lifecycle) compiled
  have named : ObjectName.validate c.toCompiler.registration.objectName = .ok () := registration.named
  have point : c.entryPoint = Compiler.registrationPoint c.toCompiler.registration := rfl
  rw [same, point]
  refine ⟨?_, fun before g elsewhere there => ?_, fun fs b result mem registers => ?_⟩
  · rw [bindingsAt_new]
    exact Compiler.bindingsAt_registrationPoint readable
  · exact published_run_new readable named elsewhere there
  · exact result_register readable named mem registers

/-- The registration target is monitored itself: its first entry publishes, and then begins a timed call. -/
theorem Probe.published_at_a_monitored_entry :
    let c : Config := { version := 1, features := { execTimeMin := true } }
    let list := "proftool.ProfTool#main\n"
    ∃ set, Config.ofText "version: 1\nfeatures:\n  exec_time_min: true\n" = .ok c ∧
      c.toCompiler.compileText list = .ok set ∧ ((Probe.new set 7).bindingsAt c.entryPoint).length = 2 ∧
      ∀ g later, g.point = c.entryPoint → ((Probe.new set 7).run {} (g :: later)).Published 7
        "proftool:type=Statistics" { execTimeMin := true, exceptionExits := true } := by
  intro c list
  have accepted : Config.ofText "version: 1\nfeatures:\n  exec_time_min: true\n" = .ok c := by decide +kernel
  have readable : Compiler.Readable (Text.lines list) := by
    unfold Compiler.Readable
    decide +kernel
  have compiled : c.toCompiler.compileText list = .ok _ :=
    Compiler.compile_of_readable c.features _ _ readable
  obtain ⟨-, published, -⟩ := published_at_entry accepted compiled 7
  exact ⟨_, accepted, compiled, by decide +kernel, fun g later there => (published [] g nofun there).2 later⟩

end Metering
