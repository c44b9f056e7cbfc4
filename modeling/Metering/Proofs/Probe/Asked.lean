import Metering.Probe.History
import Metering.Proofs.Registry.Account
import Metering.Proofs.Site.Steps

/-!
# Proofs — Probe — Asked

What firings ask of the registry that a probe reports to.  Each binding asks for at most one operation, and so a
history brings a new registry to what the operations asked for in their order bring it to (`reaches_run`); a
registration does no more than fix the options.  A result of a history is the result of one binding, on the registry
to which all that was asked before has brought it (`reaches_of_mem_results`).
-/

namespace Metering

namespace Probe
open Registry (Reaches)

/-! ### Bindings -/

/-- What bindings ask of the registry. -/
def askedBy (inv : Invocation) (bs : List Binding) : List Registry.Operation :=
  bs.filterMap fun b => operation b.target inv b.action

theorem askedBy_cons (inv : Invocation) (b : Binding) (bs : List Binding) :
    askedBy inv (b :: bs) = (operation b.target inv b.action).toList ++ askedBy inv bs := by
  rw [askedBy, List.filterMap_cons, askedBy]
  cases operation b.target inv b.action <;> rfl

theorem askedBy_append (inv : Invocation) (bs cs : List Binding) :
    askedBy inv (bs ++ cs) = askedBy inv bs ++ askedBy inv cs :=
  List.filterMap_append

/-- What the bindings at a point ask of the registry when it fires. -/
def asked (p : Probe) (f : Firing) : List Registry.Operation :=
  askedBy f.invocation (p.bindingsAt f.point)

/-- An action that registers nothing runs as the operation it asks for. -/
theorem runBinding_eq {b : Binding} {inv : Invocation} {op : Registry.Operation}
    (h : operation b.target inv b.action = some op) (number : Nat) (now : UInt64) (site : Site) :
    runBinding number b inv now site =
      (match (site.apply number now op).1.fault? with | some fault => .error fault | none => .ok (),
        (site.apply number now op).2) := by
  obtain ⟨name, target, phase, action, order⟩ := b
  cases action with
  | register => cases h
  | _ => cases h; rfl

/-- What one binding does to its registry: the operation that its action asks for, or no more than to fix the options. -/
theorem runBinding_cases (number : Nat) (b : Binding) (inv : Invocation) (now : UInt64) (site : Site) :
    let before := site.registry number
    let after := (runBinding number b inv now site).2.registry number
    (∃ op, operation b.target inv b.action = some op ∧ after = (before.apply now op).2) ∨
      operation b.target inv b.action = none ∧ b.action.kind = .register ∧
        (after = before ∨ ∃ options, after = (before.configure options).2) := by
  intro before after
  cases ha : operation b.target inv b.action with
  | some op =>
      refine .inl ⟨op, rfl, ?_⟩
      change (runBinding number b inv now site).2.registry number = _
      rw [runBinding_eq ha, Site.registry_apply]
  | none =>
      obtain ⟨name, target, phase, action, order⟩ := b
      cases action with
      | register call objectName options =>
          exact .inr ⟨rfl, rfl, (site.registry_register objectName number options).imp_right
            fun fixed => ⟨options, fixed⟩⟩
      | _ => cases ha

/-- **One binding.** -/
theorem reaches_runBinding {ops : List Registry.Operation} {site : Site} {number : Nat}
    (h : Reaches ops (site.registry number)) (b : Binding) (inv : Invocation) (now : UInt64) :
    Reaches (ops ++ (operation b.target inv b.action).toList)
      ((runBinding number b inv now site).2.registry number) := by
  rcases runBinding_cases number b inv now site with
    ⟨op, asks, step⟩ | ⟨asks, -, same | ⟨options, fixed⟩⟩
  · rw [asks, step]
    exact .apply now op h
  · rw [asks, same, Option.toList_none, List.append_nil]
    exact h
  · rw [asks, fixed, Option.toList_none, List.append_nil]
    exact .configure options h

theorem reaches_runBindings {number : Nat} (inv : Invocation) (bs : List Binding)
    {ops : List Registry.Operation} {site : Site} (h : Reaches ops (site.registry number))
    (clock : Nat → UInt64) :
    Reaches (ops ++ askedBy inv bs) ((runBindings number inv clock bs site).registry number) := by
  induction bs generalizing ops site clock with
  | nil => rwa [askedBy, List.filterMap_nil, List.append_nil]
  | cons b rest ih =>
      rw [askedBy_cons, ← List.append_assoc]
      exact ih (reaches_runBinding h b inv (clock 0)) fun n => clock (n + 1)

/-! ### Histories -/

/-- **All firings.**  A new registry is brought by a history to what the operations asked for bring it to. -/
theorem reaches_run (p : Probe) (fs : List Firing) {ops : List Registry.Operation} {site : Site}
    (h : Reaches ops (site.registry p.registry)) :
    Reaches (ops ++ fs.flatMap p.asked) ((p.run site fs).registry p.registry) := by
  induction fs generalizing ops site with
  | nil => rwa [List.flatMap_nil, List.append_nil]
  | cons f rest ih =>
      rw [List.flatMap_cons, ← List.append_assoc]
      exact ih (reaches_runBindings f.invocation (p.bindingsAt f.point) h f.clock)

/-- The same from a site where nothing has happened. -/
theorem reaches_run_new (p : Probe) (fs : List Firing) :
    Reaches (fs.flatMap p.asked) ((p.run {} fs).registry p.registry) := by
  have start : Reaches [] (({} : Site).registry p.registry) := .empty
  exact p.reaches_run fs start

/-- A result of bindings is the result of one of them, on what those before it have brought the registry to. -/
theorem reaches_of_mem_resultsOf {number : Nat} {inv : Invocation} {bs : List Binding}
    {b : Binding} {result : Except Fault Unit} {ops : List Registry.Operation} {site : Site}
    {clock : Nat → UInt64} (h : Reaches ops (site.registry number))
    (mem : (b, result) ∈ resultsOf number inv clock bs site) :
    ∃ before after now site', bs = before ++ b :: after ∧
      Reaches (ops ++ askedBy inv before) (site'.registry number) ∧
      result = (runBinding number b inv now site').1 := by
  induction bs generalizing ops site clock with
  | nil => cases mem
  | cons b₀ rest ih =>
      rcases List.mem_cons.mp mem with head | tail
      · cases head
        refine ⟨[], rest, clock 0, site, rfl, ?_, rfl⟩
        rwa [askedBy, List.filterMap_nil, List.append_nil]
      · obtain ⟨before, after, now, site', rfl, reached, rfl⟩ :=
          ih (reaches_runBinding h b₀ inv (clock 0)) tail
        refine ⟨b₀ :: before, after, now, site', rfl, ?_, rfl⟩
        rwa [askedBy_cons, ← List.append_assoc]

/-- **Results.**  A result of a history is that of one binding of one firing, on what everything asked before has
brought the registry to. -/
theorem reaches_of_mem_results {p : Probe} {fs : List Firing} {b : Binding}
    {result : Except Fault Unit} {ops : List Registry.Operation} {site : Site}
    (h : Reaches ops (site.registry p.registry)) (mem : (b, result) ∈ p.results site fs) :
    ∃ (f : Firing) (before after : List Registry.Operation) (now : UInt64) (site' : Site),
      b ∈ p.bindingsAt f.point ∧
      ops ++ fs.flatMap p.asked =
        before ++ (operation b.target f.invocation b.action).toList ++ after ∧
      Reaches before (site'.registry p.registry) ∧
      result = (runBinding p.registry b f.invocation now site').1 := by
  induction fs generalizing ops site with
  | nil => cases mem
  | cons f rest ih =>
      -- the result belongs to this firing, or to one of the rest, which start where this one ends
      rcases List.mem_append.mp mem with here | later
      · obtain ⟨before, after, now, site', hb, reached, rfl⟩ := reaches_of_mem_resultsOf h here
        refine ⟨f, _, askedBy f.invocation after ++ rest.flatMap p.asked, now, site', ?_, ?_,
          reached, rfl⟩
        · rw [hb]
          exact List.mem_append_right _ List.mem_cons_self
        · rw [List.flatMap_cons, asked, hb, askedBy_append, askedBy_cons]
          simp only [List.append_assoc]
      · obtain ⟨f', before, after, now, site', hb, split, reached, rfl⟩ :=
          ih (reaches_runBindings f.invocation (p.bindingsAt f.point) h f.clock) later
        refine ⟨f', before, after, now, site', hb, ?_, reached, rfl⟩
        rw [← split, List.flatMap_cons, List.append_assoc]
        rfl

end Probe

end Metering
