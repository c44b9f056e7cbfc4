import Metering.Proofs.Probe.Compiled
import Metering.Proofs.Registry.Calls

/-!
# Proofs — Probe — Calls

Timed calls from the compiled set to the registry.  A firing on a target of the list is about the call of its operation
key and number: an entry begins it, and an exit of either kind ends it (`turns`).  Where calls are timed, the operations
asked for say the same of each call (`marks_asked`), since the exceptional exit is then wanted with the others.
So if beginnings and ends of each call take turns, what waits are the open calls and what was taken in are the closed
ones.
-/

namespace Metering.Probe
open Compiler History Registry

/-! ### Calls in a history -/

/-- The call that a firing is about, if its target is one of these. -/
def callOf (ts : List Target) (f : Firing) : Option (Key × UInt64) :=
  if f.point.target ∈ ts then some (f.point.target.operationKey, f.invocation.call) else none

/-- What firings say of a call: at an entry that it begins (`true`), at an exit of either kind that it ends. -/
def turns (ts : List Target) (c : Key × UInt64) (fs : List Firing) : List Bool :=
  fs.filterMap fun f => if callOf ts f = some c then some (f.point.phase = .entry) else none

/-- The calls of which the last that firings say is that they begin. -/
def openCalls (ts : List Target) (fs : List Firing) : List (Key × UInt64) :=
  (fs.filterMap (callOf ts)).eraseDups.filter fun c => (turns ts c fs).getLast? = some true

/-- How many calls of an operation key have ended, normally or exceptionally. -/
def closedCalls (ts : List Target) (fs : List Firing) (k : Key) : Nat :=
  fs.countP fun f => f.point.phase ≠ .entry ∧ (callOf ts f).map Prod.fst = some k

theorem mem_openCalls {ts : List Target} {fs : List Firing} {c : Key × UInt64} :
    c ∈ openCalls ts fs ↔ (turns ts c fs).getLast? = some true := by
  rw [openCalls, List.mem_filter, List.mem_eraseDups, decide_eq_true_iff]
  refine ⟨And.right, fun h => ⟨?_, h⟩⟩
  obtain ⟨f, mem, hf⟩ := List.mem_filterMap.mp (List.mem_of_getLast? h)
  refine List.mem_filterMap.mpr ⟨f, mem, ?_⟩
  split at hf
  · assumption
  · cases hf

theorem nodup_openCalls (ts : List Target) (fs : List Firing) : (openCalls ts fs).Nodup :=
  (nodup_eraseDups _).filter _

/-! ### Calls in what is asked for -/

/-- Where calls are timed, their exceptional exits are wanted too. -/
theorem exceptionExits_of_execTimeAvg {f : Features} (h : f.normalized.execTimeAvg = true) :
    f.normalized.exceptionExits = true := by
  unfold Features.normalized at h ⊢
  exact Bool.or_eq_true_iff.mpr (.inr h)

/-- The rules of an entity ask for nothing about calls. -/
theorem calls_entityAsks {f : Features} {l : Lifecycle} {t : Target} {inv : Invocation}
    {phase : Phase} {op : Operation} (h : op ∈ entityAsks f l t inv phase) :
    callBegun op = none ∧ callEnded op = none := by
  have ended {op : Operation} (h : op ∈ entityAsks.ended f l t inv) :
      callBegun op = none ∧ callEnded op = none := by
    unfold entityAsks.ended at h
    grind [callBegun, callEnded]
  cases phase with
  | entry =>
      rw [entityAsks] at h
      grind [callBegun, callEnded]
  | exit =>
      rw [entityAsks, List.mem_append] at h
      grind [callBegun, callEnded]
  | exceptionExit => exact ended h

/-- What is asked for at a phase of a call where calls are timed. -/
def callStep (c : Key × UInt64) : Phase → Operation
  | .entry => .recordCallStart c.1 c.2
  | .exit => .recordCallEnd c.1 c.2
  | .exceptionExit => .incrementExceptionExits c.1 c.2

variable {f : Features} {r : Registration} {l : Lifecycle} {lines : List String} {registry : Nat}

/-- What is asked for about calls is what the rules of the targets ask for. -/
theorem filterMap_asked_calls {β : Type} (h : Readable lines) (firing : Firing)
    {g : Operation → Option β}
    (hg : ∀ op, callBegun op = none → callEnded op = none → g op = none) :
    ((Probe.new (output f r l lines) registry).asked firing).filterMap g =
      if firing.point.target ∈ targets lines then
        (operationAsks f.normalized firing.point.target firing.invocation
          firing.point.phase).filterMap g
      else [] :=
  filterMap_asked_target h firing fun op hop =>
    hg op (calls_entityAsks hop).1 (calls_entityAsks hop).2

/-- Where calls are timed, the rules of a target ask for one step of the call. -/
theorem filterMap_operationAsks {β : Type} {f : Features} (timed : f.normalized.execTimeAvg = true)
    (t : Target) (inv : Invocation) (phase : Phase) {g : Operation → Option β}
    (silent : ∀ k, g (.incrementCalls k) = none) :
    (operationAsks f.normalized t inv phase).filterMap g =
      (g (callStep (t.operationKey, inv.call) phase)).toList := by
  -- without the exceptional exit a call that ends so would wait for ever
  have exits := exceptionExits_of_execTimeAvg timed
  have counted : (if f.normalized.callCounts then [Operation.incrementCalls t.operationKey]
      else []).filterMap g = [] := by
    split
    · exact List.filterMap_cons_none (silent _)
    · rfl
  refine Eq.trans ?_ (filterMap_toList (some (callStep _ phase)) g)
  cases phase with
  | entry => rw [operationAsks, List.filterMap_append, counted, if_pos timed]; rfl
  | exit => rw [operationAsks, if_pos timed]; rfl
  | exceptionExit => rw [operationAsks, if_pos exits]; rfl

/-- Where calls are timed, each firing asks for one step of the call that it is about. -/
theorem filterMap_asked_timed {β : Type} (h : Readable lines)
    (timed : f.normalized.execTimeAvg = true) (fs : List Firing) {g : Operation → Option β}
    (hg : ∀ op, callBegun op = none → callEnded op = none → g op = none) :
    (fs.flatMap (Probe.new (output f r l lines) registry).asked).filterMap g =
      fs.filterMap fun firing => (callOf (targets lines) firing).bind fun c =>
        g (callStep c firing.point.phase) := by
  refine filterMap_flatMap (fun firing => ?_) fs
  rw [filterMap_asked_calls h firing hg, callOf]
  split
  · exact filterMap_operationAsks timed _ _ _ fun _ => hg _ rfl rfl
  · rfl

/-- What is asked for says of a call what the firings do. -/
theorem marks_asked (h : Readable lines) (timed : f.normalized.execTimeAvg = true)
    (fs : List Firing) (c : Key × UInt64) :
    callAccount.marks c (fs.flatMap (Probe.new (output f r l lines) registry).asked) =
      turns (targets lines) c fs := by
  have silent : ∀ op, callBegun op = none → callEnded op = none → callAccount.mark c op = none := by
    intro op hb he
    rw [mark_callAccount, hb, he, if_neg (Option.some_ne_none c).symm,
      if_neg (Option.some_ne_none c).symm]
  rw [Account.marks, filterMap_asked_timed h timed fs silent, turns]
  refine List.filterMap_congr fun firing _ => ?_
  cases callOf (targets lines) firing with
  | none => rfl
  | some c' =>
      rw [Option.bind_some, mark_callAccount]
      cases firing.point.phase <;> simp [callStep, callBegun, callEnded]

/-- What is asked for counts for a key as many calls as the firings close. -/
theorem countP_asked (h : Readable lines) (timed : f.normalized.execTimeAvg = true)
    (fs : List Firing) (k : Key) :
    (fs.flatMap (Probe.new (output f r l lines) registry).asked).countP
        (fun op => callAccount.counted op = some k) = closedCalls (targets lines) fs k := by
  let ops := fs.flatMap (Probe.new (output f r l lines) registry).asked
  have silent : ∀ op, callBegun op = none → callEnded op = none → callAccount.counted op = none :=
    fun op _ he => congrArg (Option.map Prod.fst) he
  calc ops.countP (fun op => callAccount.counted op = some k)
      = (fs.filterMap fun f => (callOf (targets lines) f).bind fun c =>
          callAccount.counted (callStep c f.point.phase)).count k := by
        rw [countP_eq_some, filterMap_asked_timed h timed fs silent]
    _ = closedCalls (targets lines) fs k := by
        rw [← countP_eq_some, closedCalls]
        refine List.countP_congr fun firing _ => ?_
        cases callOf (targets lines) firing with
        | none => simp
        | some c => cases firing.point.phase <;> simp [callAccount, callStep, callEnded]

/-- As many calls wait as are open. -/
theorem length_opened_calls (h : Readable lines) (timed : f.normalized.execTimeAvg = true)
    (fs : List Firing) :
    (callAccount.opened (fs.flatMap (Probe.new (output f r l lines) registry).asked)).length =
      (openCalls (targets lines) fs).length := by
  refine (callAccount.perm_opened (nodup_openCalls _ _) fun c => ?_).length_eq
  rw [mem_openCalls, Account.isOpen, marks_asked h timed]
  cases (turns (targets lines) c fs).getLast? <;> simp

/-- Where calls are not timed, none begins. -/
theorem begins_asked (h : Readable lines) (untimed : f.normalized.execTimeAvg = false)
    (fs : List Firing) :
    (fs.flatMap (Probe.new (output f r l lines) registry).asked).filterMap callBegun = [] := by
  induction fs with
  | nil => rfl
  | cons firing rest ih =>
      rw [List.flatMap_cons, List.filterMap_append, ih, List.append_nil,
        filterMap_asked_calls h firing fun _ hb _ => hb]
      split
      · refine List.filterMap_eq_nil_iff.mpr fun op hop => ?_
        cases hp : firing.point.phase <;> rw [hp, operationAsks] at hop <;> grind [callBegun]
      · rfl

/-- What ends a call does not fail where beginnings and ends take turns. -/
theorem result_recordCallEnd {p : Probe} {fs : List Firing}
    (turn : ∀ c, Alternating (callAccount.marks c (fs.flatMap p.asked))) {b : Binding}
    {result : Except Fault Unit} (mem : (b, result) ∈ p.results {} fs)
    (hb : b.action = .recordCallEnd) : result = .ok () := by
  obtain ⟨f, before, after, now, site, -, split, reached, rfl⟩ :=
    reaches_of_mem_results .empty mem
  have hop : operation b.target f.invocation b.action =
      some (.recordCallEnd b.target.operationKey f.invocation.call) := by rw [hb]; rfl
  -- the end is asked for in its place among the others, and there its call is open
  rw [List.nil_append, hop] at split
  rw [split, Option.toList_some, List.append_assoc] at turn
  have waits :=
    (callAccount.contains_of_reaches reached _).trans (callAccount.isOpen_of_ends turn rfl)
  rw [runBinding_eq hop, Site.outcome_apply, fault?_recordCallEnd waits]

/-- Where calls are timed and take turns, those that wait are open, no end misses, and those taken in are closed. -/
theorem calls_of_timed (h : Readable lines) (timed : f.normalized.execTimeAvg = true)
    {fs : List Firing} (turn : ∀ c, Alternating (turns (targets lines) c fs)) :
    let p := Probe.new (output f r l lines) registry
    let final := (p.run {} fs).registry registry
    final.pendingCalls = (openCalls (targets lines) fs).length ∧
      (∀ b result, (b, result) ∈ p.results {} fs → b.action = .recordCallEnd → result = .ok ()) ∧
      ∀ k, ((final.execTime? k).isSome = true ↔ 0 < closedCalls (targets lines) fs k) ∧
        (closedCalls (targets lines) fs k < UInt64.size →
          (final.execTime? k).elim 0 (·.completed.toNat) = closedCalls (targets lines) fs k) := by
  intro p final
  have reached : Reaches (fs.flatMap p.asked) final := p.reaches_run_new fs
  have size : final.pendingCalls = (callAccount.opened (fs.flatMap p.asked)).length :=
    callAccount.size_of_reaches reached
  -- what is asked for takes turns as the firings do, so each end counts
  have turn' (c : Key × UInt64) : Alternating (callAccount.marks c (fs.flatMap p.asked)) := by
    rw [marks_asked h timed]
    exact turn c
  have settled (k : Key) :
      callAccount.settled k (fs.flatMap p.asked) = closedCalls (targets lines) fs k :=
    (callAccount.settled_of_alternating turn' k).trans (countP_asked h timed fs k)
  refine ⟨size.trans (length_opened_calls h timed fs),
    fun b result mem hb => result_recordCallEnd turn' mem hb, fun k => ⟨?_, fun few => ?_⟩⟩
  · have holds : (final.execTime? k).isSome =
        decide (0 < callAccount.settled k (fs.flatMap p.asked)) :=
      callAccount.holds_of_reaches reached k
    rw [holds, settled, decide_eq_true_iff]
  · have total : Registry.timed final.execTimes k =
        .ofNat (callAccount.settled k (fs.flatMap p.asked)) :=
      callAccount.total_of_reaches reached k
    rw [elim_execTime?, total, settled, UInt64.toNat_ofNat_of_lt' few]

/-- Where calls are not timed, nothing waits and no times are kept. -/
theorem calls_of_untimed (h : Readable lines) (untimed : f.normalized.execTimeAvg = false)
    (fs : List Firing) :
    let final := ((Probe.new (output f r l lines) registry).run {} fs).registry registry
    final.pendingCalls = 0 ∧ ∀ k, final.execTime? k = none := by
  intro final
  let p := Probe.new (output f r l lines) registry
  have reached : Reaches (fs.flatMap p.asked) final := p.reaches_run_new fs
  have begins : (fs.flatMap p.asked).filterMap callAccount.begins = [] := begins_asked h untimed fs
  refine ⟨?_, fun k => ?_⟩
  · have size : final.pendingCalls = (callAccount.opened (fs.flatMap p.asked)).length :=
      callAccount.size_of_reaches reached
    rw [size, Account.opened, begins]
    rfl
  · have holds : (final.execTime? k).isSome =
        decide (0 < callAccount.settled k (fs.flatMap p.asked)) :=
      callAccount.holds_of_reaches reached k
    rw [← Option.not_isSome_iff_eq_none, holds, settled_calls_eq_zero begins]
    exact Bool.false_ne_true

/-- **Timed calls.**  Let the firings on targets of the list take turns for each call: an entry begins it, an exit of
either kind ends it.  Where calls are timed, those that wait at the end are the open ones, no end of a call misses its
start, and as many times were taken in for a key as calls were closed; where they are not timed, nothing waits and no
times are kept. -/
theorem pendingCalls_of_alternating {set : BindingSet}
    (h : (Compiler.new f r l).compile lines = .ok set) (fs : List Firing)
    (turn : ∀ c, Alternating (turns (targets lines) c fs)) :
    let p := Probe.new set registry
    let final := (p.run {} fs).registry registry
    if f.normalized.execTimeAvg then
      final.pendingCalls = (openCalls (targets lines) fs).length ∧
        (∀ b result, (b, result) ∈ p.results {} fs → b.action = .recordCallEnd → result = .ok ()) ∧
        ∀ k, ((final.execTime? k).isSome = true ↔ 0 < closedCalls (targets lines) fs k) ∧
          (closedCalls (targets lines) fs k < UInt64.size →
            (final.execTime? k).elim 0 (·.completed.toNat) = closedCalls (targets lines) fs k)
    else final.pendingCalls = 0 ∧ ∀ k, final.execTime? k = none := by
  obtain ⟨readable, rfl⟩ := readable_of_compile h
  intro p final
  cases timed : f.normalized.execTimeAvg with
  | true =>
      rw [if_pos rfl]
      exact calls_of_timed readable timed turn
  | false =>
      rw [if_neg Bool.false_ne_true]
      exact calls_of_untimed readable timed fs

/-- A call that is left, one that ends exceptionally, and one that is still open, under one number. -/
theorem pendingCalls_three_calls :
    let f : Features := { execTimeMin := true }
    let r : Registration := ⟨"Helper", "Main", "main", "register", "app:type=Statistics"⟩
    let lines := ["A#f", "A#g"]
    let at_phase (phase : Phase) : Firing := ⟨⟨⟨"A", "f"⟩, phase⟩, ⟨1, 7⟩, fun n => .ofNat (10 * n)⟩
    let fs := [at_phase .entry, at_phase .exit, at_phase .entry, at_phase .exceptionExit,
      at_phase .entry]
    let final := ((Probe.new (output f r {} lines) 0).run {} fs).registry 0
    ((Compiler.new f r).compile lines = .ok (output f r {} lines) ∧
        ∀ c, Alternating (turns (targets lines) c fs)) ∧
      final.pendingCalls = 1 ∧
        (final.execTime? (Key.operation "A" "f")).elim 0 (·.completed.toNat) = 2 := by
  intro f r lines at_phase fs final
  have compiled : (Compiler.new f r).compile lines = .ok (output f r {} lines) :=
    compile_of_readable f r {} rfl
  have listed : (⟨"A", "f"⟩ : Target) ∈ targets lines := by decide +kernel
  have about (phase : Phase) : callOf (targets lines) (at_phase phase) =
      some (Key.operation "A" "f", 7) := if_pos listed
  have turn (c : Key × UInt64) : Alternating (turns (targets lines) c fs) := by
    simp only [turns, fs, List.filterMap_cons, List.filterMap_nil, about]
    by_cases hc : (Key.operation "A" "f", 7) = c
    · simp only [hc, if_true]
      exact .ended (.ended .begun)
    · simp only [Option.some.injEq, hc, if_false]
      exact .nil
  have main := @pendingCalls_of_alternating f r {} lines 0 _ compiled fs turn
  have timed : f.normalized.execTimeAvg = true := rfl
  simp only [timed, if_true] at main
  obtain ⟨waiting, -, taken⟩ := main
  have closed : closedCalls (targets lines) fs (Key.operation "A" "f") = 2 := by decide +kernel
  have opened : (openCalls (targets lines) fs).length = 1 := by decide +kernel
  have few : closedCalls (targets lines) fs (Key.operation "A" "f") < UInt64.size := by
    rw [closed]
    decide
  exact ⟨⟨compiled, turn⟩, waiting.trans opened, ((taken _).2 few).trans closed⟩

end Metering.Probe
