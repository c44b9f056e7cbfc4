import Metering.Probe.History
import Metering.Proofs.Compiler.Arrangement

/-!
# Proofs — Probe — Turns

What a firing does, said without the table in which a probe keeps its bindings.  The bindings of the set come up in the
order of the set, whatever their positions say and however often they are repeated; one that is about the point takes
its turn, on what the ones before it have left, and the next one comes up whether it succeeds or fails (`Turns`).  A
firing ends as these turns do and counts them (`turns_of_fire`).

A binding of a compiled set has its place among the bindings as its position (`order_of_compile`), so there the turns
are taken in ascending order of positions (`ascending_of_compile`).
-/

namespace Metering

namespace Compiler

/-! ### Positions -/

variable {c : Compiler} {lines : List String} {set : BindingSet}

/-- A position is the place in the set, as a word. -/
theorem order_of_compile (h : c.compile lines = .ok set) {i : Nat} {b : Binding}
    (there : set.bindings[i]? = some b) : b.order = .ofNat i := by
  rw [eq_compiled h, compiled, place, List.getElem?_mapIdx, Option.map_eq_some_iff] at there
  obtain ⟨d, -, rfl⟩ := there
  rfl

/-- Positions ascend as long as there are words for all of them. -/
theorem ascending_of_compile (h : c.compile lines = .ok set) (fits : set.size ≤ UInt64.size) :
    set.bindings.Pairwise fun b b' => b.order < b'.order := by
  rw [List.pairwise_iff_getElem]
  intro i j hi hj before
  have last : j < UInt64.size := Nat.lt_of_lt_of_le hj fits
  rw [order_of_compile h (List.getElem?_eq_getElem hi), order_of_compile h (List.getElem?_eq_getElem hj),
    UInt64.lt_iff_toNat_lt, UInt64.toNat_ofNat_of_lt' (Nat.lt_trans before last),
    UInt64.toNat_ofNat_of_lt' last]
  exact before

end Compiler

namespace Probe

/-- Bindings come up at a firing in their order.  How many have run and the site before the first of them lead to how
many have run and the site after the last one. -/
inductive Turns (registry : Nat) (f : Firing) : List Binding → Nat × Site → Nat × Site → Prop where
  | done (reached : Nat × Site) : Turns registry f [] reached reached
  | elsewhere {b : Binding} {rest : List Binding} {reached after : Nat × Site}
      (other : ¬ (b.target = f.point.target ∧ b.phase = f.point.phase))
      (onward : Turns registry f rest reached after) : Turns registry f (b :: rest) reached after
  | succeeds {b : Binding} {rest : List Binding} {n : Nat} {site site' : Site} {after : Nat × Site}
      (target : b.target = f.point.target) (phase : b.phase = f.point.phase)
      (ran : runBinding registry b f.invocation (f.clock n) site = (.ok (), site'))
      (onward : Turns registry f rest (n + 1, site') after) :
      Turns registry f (b :: rest) (n, site) after
  | fails {b : Binding} {rest : List Binding} {n : Nat} {site site' : Site} {after : Nat × Site}
      {fault : Fault} (target : b.target = f.point.target) (phase : b.phase = f.point.phase)
      (ran : runBinding registry b f.invocation (f.clock n) site = (.error fault, site'))
      (onward : Turns registry f rest (n + 1, site') after) :
      Turns registry f (b :: rest) (n, site) after

variable {registry : Nat} {f : Firing}

theorem point_eq_iff {b : Binding} {point : Point} :
    b.point = point ↔ b.target = point.target ∧ b.phase = point.phase := by
  cases point
  rw [Binding.point, Point.mk.injEq]

/-- A binding at the point takes its turn, however it ends. -/
theorem Turns.run {b : Binding} (here : b.point = f.point) {rest : List Binding} {n : Nat}
    {site : Site} {after : Nat × Site}
    (onward : Turns registry f rest
      (n + 1, (runBinding registry b f.invocation (f.clock n) site).2) after) :
    Turns registry f (b :: rest) (n, site) after := by
  obtain ⟨target, phase⟩ := point_eq_iff.mp here
  cases ran : runBinding registry b f.invocation (f.clock n) site with
  | mk result site' =>
      rw [ran] at onward
      cases result with
      | ok => exact .succeeds target phase ran onward
      | error => exact .fails target phase ran onward

/-- **Turns**, one after another, are those of the bindings at the point. -/
theorem turns_iff {bs : List Binding} {n : Nat} {site : Site} {after : Nat × Site} :
    Turns registry f bs (n, site) after ↔
      after = (n + (bs.filter fun b => b.point = f.point).length,
        runBindings registry f.invocation (fun i => f.clock (n + i))
          (bs.filter fun b => b.point = f.point) site) := by
  induction bs generalizing n site with
  | nil => exact ⟨fun h => (by cases h; rfl), fun h => h ▸ .done _⟩
  | cons b rest ih =>
      by_cases here : b.point = f.point
      · have first : (b :: rest).filter (fun b => b.point = f.point) =
            b :: rest.filter fun b => b.point = f.point := by
          rw [List.filter_cons, if_pos (decide_eq_true here)]
        have later : (fun i => f.clock (n + (i + 1))) = fun i => f.clock (n + 1 + i) :=
          funext fun i => congrArg f.clock (by omega)
        -- the next binding reads what `clock` has for one more that has run
        have next (bs : List Binding) :
            runBindings registry f.invocation (fun i => f.clock (n + i)) (b :: bs) site =
              runBindings registry f.invocation (fun i => f.clock (n + 1 + i)) bs
                (runBinding registry b f.invocation (f.clock n) site).2 :=
          congrArg (runBindings registry f.invocation · bs _) later
        have count (k : Nat) : n + (k + 1) = n + 1 + k := by omega
        rw [first, next, List.length_cons, count, ← ih]
        refine ⟨fun h => ?_, .run here⟩
        cases h with
        | elsewhere other => exact absurd (point_eq_iff.mp here) other
        | succeeds _ _ ran onward | fails _ _ ran onward => rwa [ran]
      · rw [List.filter_cons_of_neg (by simpa using here), ← ih]
        refine ⟨fun h => ?_, .elsewhere (here ∘ point_eq_iff.mpr)⟩
        cases h with
        | elsewhere _ onward => exact onward
        | succeeds target phase | fails target phase =>
            exact absurd (point_eq_iff.mpr ⟨target, phase⟩) here

/-- **Firing.**  It ends as the turns of the bindings of the set do, and tells how many there were, failures among
them.  Where no binding is about the point, nothing is changed.  In a compiled set the position of a binding is its
place, so the turns are taken in ascending order. -/
theorem turns_of_fire (set : BindingSet) (registry : Nat) (site : Site) (f : Firing) :
    let fired := (Probe.new set registry).fire f.point f.invocation f.clock site
    (∀ after, Turns registry f set.bindings (0, site) after ↔ fired = after) ∧
      ((∀ b ∈ set.bindings, ¬ (b.target = f.point.target ∧ b.phase = f.point.phase)) →
        fired = (0, site)) ∧
      ∀ (c : Compiler) lines, c.compile lines = .ok set →
        (∀ i (b : Binding), set.bindings[i]? = some b → b.order = .ofNat i) ∧
          (set.size ≤ UInt64.size →
            (set.bindingsAt f.point).Pairwise fun b b' => b.order < b'.order) := by
  intro fired
  have ends : fired = ((set.bindingsAt f.point).length,
      runBindings registry f.invocation f.clock (set.bindingsAt f.point) site) := by
    simp only [fired, fire, bindingsAt_new]
    rfl
  have turns (after : Nat × Site) : Turns registry f set.bindings (0, site) after ↔ fired = after := by
    rw [turns_iff, ends, eq_comm]
    simp only [Nat.zero_add, BindingSet.bindingsAt]
  refine ⟨turns, fun nowhere => (turns _).mp ?_, fun c lines compiled => ⟨fun i b there => ?_, fun fits => ?_⟩⟩
  · have nothing : set.bindings.filter (fun b => b.point = f.point) = [] :=
      List.filter_eq_nil_iff.mpr fun b mem here =>
        nowhere b mem (point_eq_iff.mp (of_decide_eq_true here))
    rw [turns_iff, nothing]
    rfl
  · exact Compiler.order_of_compile compiled there
  · exact (Compiler.ascending_of_compile compiled fits).filter _

/-- A set with a binding repeated and positions out of order: of its five bindings four are about the point, the end of
a call comes up twice and fails twice, as the call never began, and two calls are counted between and after the failures.
Where the set has nothing, nothing happens.  The two bindings of a compiled set at one point stand in ascending order. -/
theorem turns_of_five_bindings :
    let t : Target := ⟨"A", "f"⟩
    let ends : Binding := ⟨"times", t, .exit, .recordCallEnd, 7⟩
    let counts : Binding := ⟨"counts", t, .exit, .incrementCallCount, 3⟩
    let set : BindingSet := ⟨"H", [ends, counts, ends, ⟨"begins", t, .entry, .recordCallStart, 0⟩, counts]⟩
    let f : Firing := ⟨⟨t, .exit⟩, ⟨1, 2⟩, fun n => .ofNat (10 + n)⟩
    let elsewhere : Firing := { f with point := ⟨t, .exceptionExit⟩ }
    let c := Compiler.new { execTimeAvg := true, callCounts := true }
      ⟨"H", "app.Main", "main", "registerMBean", "p:t=S"⟩
    (∃ site, Turns 0 f set.bindings (0, {}) (4, site) ∧
        (site.registry 0).callCount t.operationKey = 2) ∧
      (Probe.new set 0).fire elsewhere.point f.invocation f.clock {} = (0, {}) ∧
      ∃ compiled, c.compile ["A#f"] = .ok compiled ∧ (compiled.bindingsAt ⟨t, .entry⟩).length = 2 ∧
        (compiled.bindingsAt ⟨t, .entry⟩).Pairwise fun b b' => b.order < b'.order := by
  intro t ends counts set f elsewhere c
  obtain ⟨turns, -, -⟩ := turns_of_fire set 0 {} f
  obtain ⟨-, nowhere, -⟩ := turns_of_fire set 0 {} elsewhere
  obtain ⟨compiled, succeeds⟩ : ∃ compiled, c.compile ["A#f"] = .ok compiled :=
    Compiler.compile_of_fine (by decide +kernel)
  obtain ⟨-, ordered⟩ := (turns_of_fire compiled 0 {} { f with point := ⟨t, .entry⟩ }).2.2 c _ succeeds
  have set_eq := Compiler.eq_compiled succeeds
  have fits : compiled.size ≤ UInt64.size := by
    rw [set_eq]
    decide +kernel
  refine ⟨⟨_, (turns _).mpr (Prod.ext (by decide +kernel) rfl), by decide +kernel⟩,
    nowhere (by decide), compiled, succeeds, ?_, ordered fits⟩
  rw [set_eq]
  decide +kernel

end Probe

end Metering
