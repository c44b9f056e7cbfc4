import Metering.Compiler
import Metering.Proofs.History

/-!
# Proofs — Compiler — Output

What a target list compiles to, said without reading it line by line.

* `retained lines`: the lines that count.  A line counts when it is not blank once its carriage returns are dropped,
  and when no line before it has the same text.
* `entityRules` and `operationRules`: what may be emitted for an entity and for a target, each rule with the features
  that want it.
* `emitted`: the blocks of the targets in order, the one of an entity at the first target that has it.

`compile_eq_ok_iff` ties the reader to this description: compiling succeeds exactly when every line that counts writes
a target, and gives the registration followed by what is emitted for these targets, each binding at its position.
-/

namespace Metering.Compiler
open History

/-! ### The lines that count -/

/-- The lines that count, without their carriage returns, each text where it first stands. -/
def retained (lines : List String) : List String :=
  ((lines.map Text.withoutReturns).filter fun line => !Text.isBlank line).eraseDups

/-- The targets that the lines that count write. -/
def targets (lines : List String) : List Target :=
  (retained lines).filterMap fun line => (Target.parse line).toOption

/-- Every line that counts writes a target. -/
def Readable (lines : List String) : Prop :=
  (retained lines).map Target.parse = (targets lines).map .ok

/-- One more line counts if it is not blank and is no repetition of one that does. -/
theorem retained_concat (lines : List String) (raw : String) :
    retained (lines ++ [raw]) =
      retained lines ++
        if Text.isBlank (Text.withoutReturns raw) ∨ Text.withoutReturns raw ∈ retained lines then []
        else [Text.withoutReturns raw] := by
  unfold retained
  generalize hl : Text.withoutReturns raw = line
  rw [List.map_append, List.filter_append, List.map_singleton, hl]
  cases hb : Text.isBlank line with
  | true => simp [hb]
  | false =>
      rw [List.filter_cons_of_pos (by simp [hb]), List.filter_nil, eraseDups_concat]
      simp only [List.mem_eraseDups, Bool.false_eq_true, false_or]

/-- Lines that counted go on to count when more lines follow. -/
theorem retained_append (lines more : List String) :
    ∃ rest, retained (lines ++ more) = retained lines ++ rest := by
  simp only [retained, List.map_append, List.filter_append, List.eraseDups_append]
  exact ⟨_, rfl⟩

/-! ### The rules -/

/-- What may be emitted, and whether the features want it. -/
structure Rule where
  wanted : Bool
  title : String
  target : Target
  phase : Phase
  action : Action

/-- The drafts of the rules that are wanted, each named by its title and by what the block is about. -/
def block (label : String) (rules : List Rule) : List Draft :=
  (rules.filter (·.wanted)).map fun r => ⟨r.title ++ ": " ++ label, r.target, r.phase, r.action⟩

/-- The rules of an entity, for features that are closed under what they need. -/
def entityRules (f : Features) (l : Lifecycle) (entity : String) : List Rule :=
  let born : Target := ⟨entity, l.constructor⟩
  let done : Target := ⟨entity, l.completion⟩
  [⟨f.instanceCounts, "Increment instance count", born, .exit, .incrementInstanceCount⟩,
   ⟨f.lifetimeAvg, "Record instance creation time", born, .entry, .recordCreationTime⟩,
   ⟨f.lifetimeAvg, "Record instance lifetime, no exceptions", done, .exit,
    .recordInstanceLifetime⟩,
   ⟨f.lifetimeAvg, "Record instance lifetime, if exceptions", done, .exceptionExit,
    .recordInstanceLifetime⟩,
   ⟨!f.lifetimeAvg && f.instanceCounts, "Decrement live instance count, no exceptions", done,
    .exit, .decrementLiveInstanceCount⟩,
   ⟨!f.lifetimeAvg && f.instanceCounts, "Decrement live instance count, if exceptions", done,
    .exceptionExit, .decrementLiveInstanceCount⟩]

/-- The rules of a target, for such features. -/
def operationRules (f : Features) (t : Target) : List Rule :=
  [⟨f.callCounts, "Increment call count", t, .entry, .incrementCallCount⟩,
   ⟨f.execTimeAvg, "Record call time of method", t, .entry, .recordCallStart⟩,
   ⟨f.execTimeAvg, "Record execution time of method", t, .exit, .recordCallEnd⟩,
   ⟨f.exceptionExits, "Exits via exceptions from method", t, .exceptionExit,
    .incrementExceptionExit⟩]

def entityBlock (f : Features) (l : Lifecycle) (entity : String) : List Draft :=
  block entity (entityRules f l entity)

def operationBlock (f : Features) (t : Target) : List Draft :=
  block (t.entity ++ " - " ++ t.operation) (operationRules f t)

/-- The block of the target's entity, if no target before it has that entity, and the target's own block. -/
def emittedFor (f : Features) (l : Lifecycle) (before : List Target) (t : Target) : List Draft :=
  (if t.entity ∈ before.map (·.entity) then [] else entityBlock f l t.entity) ++ operationBlock f t

/-- What is emitted for targets in their order. -/
def emitted (f : Features) (l : Lifecycle) (ts : List Target) : List Draft :=
  (mapBefore (emittedFor f l) ts).flatten

/-- The binding that publishes the statistics, with the options of such features. -/
def registrationRule (f : Features) (r : Registration) : Draft where
  name := "Register statistics: " ++ r.objectName
  target := ⟨r.entity, r.operation⟩
  phase := .entry
  action := .register r.action r.objectName
    ⟨f.lifetimeMin, f.lifetimeMax, f.execTimeMin, f.execTimeMax, f.exceptionExits⟩

/-! ### The drafts of the compiler are those of the rules -/

theorem entityDrafts_eq (c : Compiler) (entity : String) :
    c.entityDrafts entity = entityBlock c.features c.lifecycle entity := by
  obtain ⟨⟨counts, _, timed, _, _, _, _, _, _⟩, r, l⟩ := c
  cases counts <;> cases timed <;> rfl

theorem operationDrafts_eq (c : Compiler) (t : Target) :
    c.operationDrafts t = operationBlock c.features t := by
  obtain ⟨⟨_, _, _, _, calls, _, timed, _, exits⟩, r, l⟩ := c
  cases calls <;> cases timed <;> cases exits <;> rfl

/-- The options are those of the closed features: to close them again adds nothing. -/
theorem recordOptions_normalized (f : Features) :
    f.normalized.recordOptions =
      ⟨f.normalized.lifetimeMin, f.normalized.lifetimeMax, f.normalized.execTimeMin,
        f.normalized.execTimeMax, f.normalized.exceptionExits⟩ := by
  unfold Features.recordOptions
  rw [Features.normalized_normalized]

theorem registrationDraft_new (f : Features) (r : Registration) (l : Lifecycle) :
    (Compiler.new f r l).registrationDraft = registrationRule f.normalized r := by
  unfold registrationRule
  rw [← recordOptions_normalized]
  rfl

/-! ### Reading line by line -/

theorem emitted_concat (f : Features) (l : Lifecycle) (ts : List Target) (t : Target) :
    emitted f l (ts ++ [t]) = emitted f l ts ++ emittedFor f l ts t := by
  rw [emitted, mapBefore_concat, List.flatten_append, emitted]
  simp only [List.flatten_cons, List.flatten_nil, List.append_nil]

/-- Up to their order, the blocks are those of the entities, each once, and those of the targets. -/
theorem emitted_perm (f : Features) (l : Lifecycle) (ts : List Target) :
    (emitted f l ts).Perm
      ((ts.map (·.entity)).eraseDups.flatMap (entityBlock f l) ++ ts.flatMap (operationBlock f)) := by
  induction ts using List.reverseRecOn with
  | nil => exact .nil
  | append_singleton ts t ih =>
      rw [emitted_concat, emittedFor, List.map_append, List.map_singleton, eraseDups_concat,
        List.flatMap_append, List.flatMap_append, List.flatMap_singleton]
      refine (ih.append_right _).trans ?_
      split
      · simp
      · rw [List.flatMap_singleton, List.append_assoc, List.append_assoc, List.perm_append_left_iff]
        rw [← List.append_assoc, ← List.append_assoc, List.perm_append_right_iff]
        exact List.perm_append_comm

/-- What has been read of `done` is `p`: the lines that count, the entities of their targets, and what is emitted for
them. -/
structure Read (c : Compiler) (done : List String) (p : Progress) : Prop where
  readable : Readable done
  lines : p.lines.reverse = retained done
  entities : ∀ e, e ∈ p.entities ↔ e ∈ (targets done).map (·.entity)
  drafts : p.drafts.reverse = emitted c.features c.lifecycle (targets done)

theorem read_nil (c : Compiler) : Read c [] {} where
  readable := rfl
  lines := rfl
  entities _ := Iff.rfl
  drafts := rfl

theorem targets_concat {done : List String} {raw : String} {rest : List String}
    (h : retained (done ++ [raw]) = retained done ++ rest) :
    targets (done ++ [raw]) =
      targets done ++ rest.filterMap fun line => (Target.parse line).toOption := by
  rw [targets, h, List.filterMap_append, targets]

/-- A line that does not count changes nothing. -/
theorem Read.pass {c : Compiler} {done : List String} {p : Progress} {raw : String}
    (h : Read c done p) (hr : retained (done ++ [raw]) = retained done) :
    Read c (done ++ [raw]) p := by
  have ht : targets (done ++ [raw]) = targets done := by rw [targets, hr, targets]
  refine ⟨?_, ?_, ?_, ?_⟩
  · rw [Readable, hr, ht]; exact h.readable
  · rw [hr]; exact h.lines
  · rw [ht]; exact h.entities
  · rw [ht]; exact h.drafts

/-- A line that counts adds its target's drafts, those of the entity among them if the entity is new. -/
theorem Read.add {c : Compiler} {done : List String} {p : Progress} {raw line : String} {t : Target}
    (h : Read c done p) (hr : retained (done ++ [raw]) = retained done ++ [line])
    (hp : Target.parse line = .ok t) :
    Read c (done ++ [raw])
      { lines := line :: p.lines
        entities := if t.entity ∈ p.entities then p.entities else t.entity :: p.entities
        drafts := (emittedFor c.features c.lifecycle (targets done) t).reverse ++ p.drafts } := by
  have ht : targets (done ++ [raw]) = targets done ++ [t] := by
    rw [targets_concat hr]
    simp [hp, Except.toOption]
  refine ⟨?_, ?_, fun e => ?_, ?_⟩
  · rw [Readable, hr, ht, List.map_append, List.map_append, ← h.readable]
    simp [hp]
  · rw [hr, List.reverse_cons, h.lines]
  · rw [ht, List.map_append, List.mem_append, ← h.entities e]
    by_cases known : t.entity ∈ p.entities
    · rw [if_pos known, List.map_singleton, List.mem_singleton]
      exact ⟨.inl, fun he => he.elim id fun he => he ▸ known⟩
    · rw [if_neg known, List.mem_cons, List.map_singleton, List.mem_singleton, or_comm]
  · rw [ht, emitted_concat, List.reverse_append, List.reverse_reverse, h.drafts]

/-- How the reading of `done` may end: with what has been read of it, or at a line that counts and writes no target. -/
inductive Ends (c : Compiler) (done : List String) : Except Fault Progress → Prop where
  | read {p : Progress} (h : Read c done p) : Ends c done (.ok p)
  | refused {fault : Fault} {line : String} (mem : line ∈ retained done)
      (bad : ∀ t, Target.parse line ≠ .ok t) : Ends c done (.error fault)

/-- **One line.**  What has been read grows by it, or it counts and writes no target. -/
theorem Read.step {c : Compiler} {done : List String} {p : Progress} (h : Read c done p)
    (number : Nat) (raw : String) : Ends c (done ++ [raw]) (c.readLine p number raw) := by
  have seen (line : String) : line ∈ p.lines ↔ line ∈ retained done := by
    rw [← h.lines, List.mem_reverse]
  have hr := retained_concat done raw
  unfold readLine
  simp only [seen]
  by_cases passed : Text.isBlank (Text.withoutReturns raw) ∨ Text.withoutReturns raw ∈ retained done
  · rw [if_pos passed] at hr ⊢
    exact .read (h.pass (by rw [hr, List.append_nil]))
  · rw [if_neg passed] at hr ⊢
    rw [Target.parseLine]
    cases hp : Target.parse (Text.withoutReturns raw) with
    | error flaw =>
        have mem : Text.withoutReturns raw ∈ retained (done ++ [raw]) := by
          rw [hr]
          exact List.mem_append_right _ List.mem_cons_self
        exact .refused mem fun t ht => by rw [hp] at ht; cases ht
    | ok t =>
        have added := h.add hr hp
        rw [emittedFor] at added
        simp only [← h.entities t.entity] at added
        refine .read ?_
        simpa only [entityDrafts_eq, operationDrafts_eq, decide_eq_true_iff] using added

/-- **All lines.**  The reading ends for a whole list as it may for each line. -/
theorem Read.run {c : Compiler} (rest : List String) {done : List String} {p : Progress}
    (h : Read c done p) (number : Nat) : Ends c (done ++ rest) (c.readLines p number rest) := by
  induction rest generalizing done p number with
  | nil =>
      rw [readLines, List.append_nil]
      exact .read h
  | cons raw rest ih =>
      have step := h.step number raw
      rw [readLines, List.append_cons]
      cases hl : c.readLine p number raw with
      | error fault =>
          rw [hl] at step
          cases step with
          | refused mem bad =>
              -- the line counts among all lines too, so the first flaw decides
              obtain ⟨more, hm⟩ := retained_append (done ++ [raw]) rest
              exact .refused (hm ▸ List.mem_append_left more mem) bad
      | ok p' =>
          rw [hl] at step
          cases step with
          | read read => exact ih read (number + 1)

/-- The bindings for lines: the registration and what is emitted for the targets, each at its position. -/
def output (f : Features) (r : Registration) (l : Lifecycle) (lines : List String) : BindingSet where
  helper := r.helper
  bindings :=
    (registrationRule f.normalized r :: emitted f.normalized l (targets lines)).mapIdx fun i d =>
      ⟨d.name, d.target, d.phase, d.action, .ofNat i⟩

/-- When a line that counts writes no target, the lines are not readable. -/
theorem not_readable_of_mem {lines : List String} {line : String} (mem : line ∈ retained lines)
    (bad : ∀ t, Target.parse line ≠ .ok t) : ¬ Readable lines := by
  intro h
  have : Target.parse line ∈ (targets lines).map .ok := h ▸ List.mem_map_of_mem mem
  obtain ⟨t, -, ht⟩ := List.mem_map.mp this
  exact bad t ht.symm

/-- What a compiler makes of readable lines. -/
def compiled (c : Compiler) (lines : List String) : BindingSet where
  helper := c.registration.helper
  bindings := place (c.registrationDraft :: emitted c.features c.lifecycle (targets lines))

theorem compiled_new (f : Features) (r : Registration) (l : Lifecycle) (lines : List String) :
    (Compiler.new f r l).compiled lines = output f r l lines := by
  rw [compiled, registrationDraft_new]
  rfl

/-- Compiling succeeds for readable lines, and fails for others. -/
theorem compile_cases (c : Compiler) (lines : List String) :
    (Readable lines ∧ c.compile lines = .ok (c.compiled lines)) ∨
      (¬ Readable lines ∧ ∃ fault, c.compile lines = .error fault) := by
  have ends := (read_nil c).run lines 1
  rw [compile]
  cases hl : c.readLines {} 1 lines with
  | error fault =>
      rw [hl] at ends
      cases ends with
      | refused mem bad => exact .inr ⟨not_readable_of_mem mem bad, fault, rfl⟩
  | ok p =>
      rw [hl] at ends
      cases ends with
      | read read =>
          refine .inl ⟨read.readable, ?_⟩
          change Except.ok (BindingSet.mk _ (place (_ :: p.drafts.reverse))) = _
          rw [read.drafts]
          rfl

theorem readable_of_compile {f : Features} {r : Registration} {l : Lifecycle} {lines : List String}
    {set : BindingSet} (h : (Compiler.new f r l).compile lines = .ok set) :
    Readable lines ∧ set = output f r l lines := by
  rcases compile_cases (Compiler.new f r l) lines with ⟨hr, ho⟩ | ⟨-, fault, he⟩
  · rw [ho, compiled_new] at h
    cases h
    exact ⟨hr, rfl⟩
  · rw [he] at h
    cases h

theorem compile_of_readable (f : Features) (r : Registration) (l : Lifecycle) {lines : List String}
    (h : Readable lines) : (Compiler.new f r l).compile lines = .ok (output f r l lines) := by
  rcases compile_cases (Compiler.new f r l) lines with ⟨-, ho⟩ | ⟨hn, -⟩
  · rw [ho, compiled_new]
  · exact absurd h hn

/-- **What a target list compiles to.**  Compiling succeeds exactly when every line that counts writes a target.  It
gives the registration, then for each of these targets in order the block of its entity, unless a target before it has
that entity, and its own block; a binding's order is its position. -/
theorem compile_eq_ok_iff (f : Features) (r : Registration) (l : Lifecycle) (lines : List String)
    (set : BindingSet) :
    (Compiler.new f r l).compile lines = .ok set ↔ Readable lines ∧ set = output f r l lines := by
  refine ⟨readable_of_compile, ?_⟩
  rintro ⟨hr, rfl⟩
  exact compile_of_readable f r l hr

end Metering.Compiler
