import Metering.Proofs.Compiler.Kinds
import Metering.Proofs.Probe.Asked
import Metering.Proofs.Registry.Reads

/-!
# Proofs — Probe — Once

A firing of a compiled set counts nothing twice.  A `Part` is a part of a registry with the kinds of actions that may
change it, and no phase has two of these kinds.  One binding changes a part once or not at all (`Part.runBinding`), so
bindings of which at most one is of its kinds do (`Part.runBindings`); and at a point of a compiled set no two are, as
the kinds there are kinds of the phase, each at most once.

The counters and the summaries of times are such parts.  The instances that have ended have two kinds, the plain ends and
the timed ones, which are never in one set; the times of calls have two, which belong to different phases.
-/

namespace Metering.Probe
open Compiler Registry
open Metering.Action (Kind)

/-- The kind of the actions that ask for an operation. -/
def kindOf : Operation → Kind
  | .configure _ => .register
  | .incrementInstances _ => .incrementInstanceCount
  | .decrementLive _ => .decrementLiveInstanceCount
  | .recordCreation .. => .recordCreationTime
  | .recordLifetime .. => .recordInstanceLifetime
  | .incrementCalls _ => .incrementCallCount
  | .recordCallStart .. => .recordCallStart
  | .recordCallEnd .. => .recordCallEnd
  | .incrementExceptionExits .. => .incrementExceptionExit

theorem kindOf_operation {target : Target} {inv : Invocation} {action : Action} {op : Operation}
    (h : operation target inv action = some op) : kindOf op = action.kind := by
  cases action <;> cases h <;> rfl

/-! ### Parts -/

/-- A part of a registry, the kinds of actions that it concerns, and how one of them may change it. -/
structure Part (α : Type) where
  read : Registry → α
  concerns : Kind → Bool
  Change : α → α → Prop
  read_apply : ∀ r now op, read (r.apply now op).2 = read r ∨
    concerns (kindOf op) = true ∧ Change (read r) (read (r.apply now op).2)
  /-- No phase has two of the kinds. -/
  countP_kindsAt : ∀ timed phase, (kindsAt timed phase).countP concerns ≤ 1

namespace Part

variable {α : Type} (part : Part α)

/-- **One binding.**  It leaves a part as it was, or it is of one of its kinds and changes it once. -/
theorem runBinding (number : Nat) (b : Binding) (inv : Invocation) (now : UInt64) (site : Site) :
    let after := (Probe.runBinding number b inv now site).2
    part.read (after.registry number) = part.read (site.registry number) ∨
      part.concerns b.action.kind = true ∧
        part.Change (part.read (site.registry number)) (part.read (after.registry number)) := by
  intro after
  rcases runBinding_cases number b inv now site with
    ⟨op, asks, step⟩ | ⟨-, register, same | ⟨options, fixed⟩⟩
  · rw [step, ← kindOf_operation asks]
    exact part.read_apply _ now op
  · exact .inl (congrArg part.read same)
  · rw [fixed, register]
    exact part.read_apply _ now (.configure options)

/-- **Bindings.**  Where none is of the part's kinds it stays as it was, and where one is it may change once. -/
theorem runBindings (number : Nat) (inv : Invocation) (bs : List Binding) (clock : Nat → UInt64)
    (site : Site) :
    let after := Probe.runBindings number inv clock bs site
    let count := bs.countP fun b => part.concerns b.action.kind
    (count = 0 → part.read (after.registry number) = part.read (site.registry number)) ∧
      (count ≤ 1 → part.read (after.registry number) = part.read (site.registry number) ∨
        part.Change (part.read (site.registry number)) (part.read (after.registry number))) := by
  induction bs generalizing clock site with
  | nil => exact ⟨fun _ => rfl, fun _ => .inl rfl⟩
  | cons b rest ih =>
      obtain ⟨none, one⟩ := ih (fun n => clock (n + 1))
        (Probe.runBinding number b inv (clock 0) site).2
      rw [List.countP_cons]
      rcases part.runBinding number b inv (clock 0) site with same | ⟨concerned, changed⟩
      · rw [same] at none one
        exact ⟨fun h => none (by omega), fun h => one (by omega)⟩
      · rw [if_pos concerned]
        refine ⟨fun h => by omega, fun h => .inr ?_⟩
        rw [← none (by omega)] at changed
        exact changed

/-- **One firing.** -/
theorem fire {f : Features} {r : Registration} {l : Lifecycle} {lines : List String}
    (h : Readable lines) (number : Nat) (site : Site) (point : Point) (inv : Invocation)
    (clock : Nat → UInt64) :
    let after := ((Probe.new (output f r l lines) number).fire point inv clock site).2
    part.read (after.registry number) = part.read (site.registry number) ∨
      part.Change (part.read (site.registry number)) (part.read (after.registry number)) := by
  refine (part.runBindings number inv _ clock site).2 ?_
  have some_of_phase := kinds_actionsAt_sublist (f := f) (r := r) (l := l) h point
  have kinds : ((output f r l lines).bindingsAt point).countP (fun b => part.concerns b.action.kind) =
      (((output f r l lines).actionsAt point).map Action.kind).countP part.concerns := by
    rw [BindingSet.actionsAt, List.map_map, List.countP_map]
    rfl
  rw [bindingsAt_new, kinds]
  exact some_of_phase.countP_le.trans (part.countP_kindsAt _ _)

end Part

/-! ### Counters and summaries -/

/-- Counters are raised for one key. -/
def ofTally (t : Tally) (concerns : Kind → Bool)
    (told : ∀ op outcome key, t.counted op outcome = some key → concerns (kindOf op) = true)
    (unique : ∀ timed phase, (kindsAt timed phase).countP concerns ≤ 1) : Part Counters where
  read := t.counters
  concerns := concerns
  Change before after := ∃ key, after = before.increment key
  read_apply r now op := by
    rw [t.counters_apply]
    cases h : t.counted op (r.apply now op).1 with
    | none => exact .inl rfl
    | some key => exact .inr ⟨told _ _ _ h, key, rfl⟩
  countP_kindsAt := unique

/-- Summaries take in one time. -/
def ofSeries (s : Series) (concerns : Kind → Bool)
    (told : ∀ op outcome x, s.takes op outcome = some x → concerns (kindOf op) = true)
    (unique : ∀ timed phase, (kindsAt timed phase).countP concerns ≤ 1) : Part Timings where
  read := s.timings
  concerns := concerns
  Change before after := ∃ key time trackMin trackMax, after = before.observe key time trackMin trackMax
  read_apply r now op := by
    rw [s.timings_apply]
    cases h : s.takes op (r.apply now op).1 with
    | none => exact .inl rfl
    | some x => exact .inr ⟨told _ _ _ h, x.1, x.2, _, _, rfl⟩
  countP_kindsAt := unique

/-! ### The parts of a registry -/

def instancePart : Part Counters :=
  ofTally instanceTally (· = .incrementInstanceCount)
    (fun op _ _ h => by cases op <;> first | rfl | cases h)
    (fun timed phase => by cases timed <;> cases phase <;> decide)

def finishedPart : Part Counters :=
  ofTally finishedTally
    (fun kind => kind = .recordInstanceLifetime ∨ kind = .decrementLiveInstanceCount)
    (fun op _ _ h => by cases op <;> first | rfl | cases h)
    (fun timed phase => by cases timed <;> cases phase <;> decide)

def callPart : Part Counters :=
  ofTally callTally (· = .incrementCallCount)
    (fun op _ _ h => by cases op <;> first | rfl | cases h)
    (fun timed phase => by cases timed <;> cases phase <;> decide)

def exitPart : Part Counters :=
  ofTally exitTally (· = .incrementExceptionExit)
    (fun op _ _ h => by cases op <;> first | rfl | cases h)
    (fun timed phase => by cases timed <;> cases phase <;> decide)

def lifetimePart : Part Timings :=
  ofSeries lifetimeSeries (· = .recordInstanceLifetime)
    (fun op _ _ h => by cases op <;> first | rfl | cases h)
    (fun timed phase => by cases timed <;> cases phase <;> decide)

def execTimePart : Part Timings :=
  ofSeries execTimeSeries (fun kind => kind = .recordCallEnd ∨ kind = .incrementExceptionExit)
    (fun op _ _ h => by cases op <;> first | rfl | cases h)
    (fun timed phase => by cases timed <;> cases phase <;> decide)

/-- **Once at each point.**  In what a target list compiles to, whatever the features, the registration and the
lifecycle, no two bindings have target, phase and kind of action in common, and instances end by timed lives or by plain
ends, never by both.  So a firing, in every state of a site, raises each total of each key by at most one, and takes in
at most one time of a life and at most one of a call. -/
theorem once_at_each_point {f : Features} {r : Registration} {l : Lifecycle} {lines : List String}
    {set : BindingSet} (h : (Compiler.new f r l).compile lines = .ok set) :
    set.bindings.Pairwise (fun b c =>
        ¬ (b.target = c.target ∧ b.phase = c.phase ∧ b.action.kind = c.action.kind)) ∧
      (set.countOf .recordInstanceLifetime = 0 ∨ set.countOf .decrementLiveInstanceCount = 0) ∧
      ∀ number site point inv clock,
        let before := site.registry number
        let after := ((Probe.new set number).fire point inv clock site).2.registry number
        (∀ counters ∈ [instances, finished, calls, exceptionExits], ∀ key,
          (counters after).total key = (counters before).total key ∨
            (counters after).total key = (counters before).total key + 1) ∧
        ∀ timings ∈ [lifetimes, execTimes], timings after = timings before ∨
          ∃ key time trackMin trackMax,
            timings after = (timings before).observe key time trackMin trackMax := by
  obtain ⟨readable, rfl⟩ := readable_of_compile h
  refine ⟨pairwise_output readable, ?_, fun number site point inv clock => ?_⟩
  · have absent := countOf_endKind (f := f) (r := r) (l := l) readable
    revert absent
    cases f.normalized.lifetimeAvg with
    | true => exact .inr
    | false => exact .inl
  · intro before after
    have fired {α : Type} (part : Part α) : part.read after = part.read before ∨
        part.Change (part.read before) (part.read after) :=
      part.fire readable number site point inv clock
    clear_value before after
    have raises : ∀ counters ∈ [instances, finished, calls, exceptionExits],
        counters after = counters before ∨
          ∃ key, counters after = (counters before).increment key := by
      simp only [List.forall_mem_cons]
      exact ⟨fired instancePart, fired finishedPart, fired callPart, fired exitPart, nofun⟩
    refine ⟨fun counters mem key => ?_, ?_⟩
    · rcases raises counters mem with same | ⟨raised, step⟩
      · exact .inl (by rw [same])
      · rw [step, total_increment]
        split
        · exact .inr rfl
        · exact .inl (by rw [UInt64.add_zero])
    · simp only [List.forall_mem_cons]
      exact ⟨fired lifetimePart, fired execTimePart, nofun⟩

/-- One operation that registers, and begins and ends lives.  Its nine bindings differ, and its exit counts an instance
and the end of one, each once. -/
theorem once_at_the_only_operation :
    let t : Target := ⟨"A", "f"⟩
    let r : Registration := ⟨"Helper", "A", "f", "register", "app:type=Statistics"⟩
    let l : Lifecycle := ⟨"f", "f"⟩
    let set := output .all r l ["A#f"]
    let probe := Probe.new set 0
    let entered := (probe.fire ⟨t, .entry⟩ ⟨1, 2⟩ (fun n => .ofNat n) {}).2
    let left := (probe.fire ⟨t, .exit⟩ ⟨1, 2⟩ (fun n => .ofNat (10 + n)) entered).2
    (Compiler.new .all r l).compile ["A#f"] = .ok set ∧
      set.bindings.length = 9 ∧
      set.bindings.Pairwise (fun b c =>
        ¬ (b.target = c.target ∧ b.phase = c.phase ∧ b.action.kind = c.action.kind)) ∧
      ((left.registry 0).instances.total t.entityKey =
        (entered.registry 0).instances.total t.entityKey + 1) ∧
      (left.registry 0).finished.total t.entityKey =
        (entered.registry 0).finished.total t.entityKey + 1 := by
  intro t r l set probe entered left
  have compiled : (Compiler.new .all r l).compile ["A#f"] = .ok set := compile_of_readable .all r l rfl
  obtain ⟨distinct, -, fired⟩ := once_at_each_point compiled
  obtain ⟨raises, -⟩ := fired 0 entered ⟨t, .exit⟩ ⟨1, 2⟩ fun n => .ofNat (10 + n)
  refine ⟨compiled, by decide +kernel, distinct, ?_, ?_⟩
  · exact (raises instances (by simp) t.entityKey).resolve_left (by decide +kernel)
  · exact (raises finished (by simp) t.entityKey).resolve_left (by decide +kernel)

end Metering.Probe
