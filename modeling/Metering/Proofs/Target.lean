import Metering.Proofs.Compiler.Arrangement

/-!
# Proofs — Target

Targets and the lines that write them.  A line that is read is the text of its target, so no two lines are read as one
target; and a target is read back from its text exactly when its entity is not empty and has no separator and its
operation is not empty (`parse_text_iff`).  A separator in the operation does no harm.

What a compiled set monitors is of this kind.  Entities come from lines that were read, and operations from these lines
or from the lifecycle (`mem_emitted`), so every target but that of the registration is read back if the names of the
lifecycle are not empty (`read_back`).
-/

namespace Metering

namespace Compiler

/-! ### The targets of a compiled set -/

variable {f : Features} {l : Lifecycle} {d : Draft}

/-- What is drafted for an entity is about the start or the end of its lifecycle. -/
theorem mem_entityBlock {entity : String} (h : d ∈ entityBlock f l entity) :
    d.action.kind ≠ .register ∧
      (d.target = ⟨entity, l.constructor⟩ ∨ d.target = ⟨entity, l.completion⟩) := by
  obtain ⟨rule, wanted, rfl⟩ := List.mem_map.mp h
  have mem := (List.mem_filter.mp wanted).1
  simp only [entityRules, List.mem_cons, List.not_mem_nil, or_false] at mem
  rcases mem with rfl | rfl | rfl | rfl | rfl | rfl <;> simp [Action.kind]

/-- What is drafted for a target is about it. -/
theorem mem_operationBlock {t : Target} (h : d ∈ operationBlock f t) :
    d.action.kind ≠ .register ∧ d.target = t := by
  obtain ⟨rule, wanted, rfl⟩ := List.mem_map.mp h
  have mem := (List.mem_filter.mp wanted).1
  simp only [operationRules, List.mem_cons, List.not_mem_nil, or_false] at mem
  rcases mem with rfl | rfl | rfl | rfl <;> simp [Action.kind]

/-- What is emitted is about the entity of a target, at the start or the end of its lifecycle or at the operation of
this target. -/
theorem mem_emitted {ts : List Target} (h : d ∈ emitted f l ts) :
    d.action.kind ≠ .register ∧ ∃ t ∈ ts, d.target.entity = t.entity ∧
      (d.target.operation = l.constructor ∨ d.target.operation = l.completion ∨
        d.target.operation = t.operation) := by
  rcases List.mem_append.mp ((emitted_perm f l ts).mem_iff.mp h) with ofEntity | ofTarget
  · obtain ⟨entity, listed, drafted⟩ := List.mem_flatMap.mp ofEntity
    obtain ⟨t, mem, rfl⟩ := List.mem_map.mp (List.mem_eraseDups.mp listed)
    obtain ⟨kind, target | target⟩ := mem_entityBlock drafted
    · exact ⟨kind, t, mem, by rw [target], .inl (by rw [target])⟩
    · exact ⟨kind, t, mem, by rw [target], .inr (.inl (by rw [target]))⟩
  · obtain ⟨t, mem, drafted⟩ := List.mem_flatMap.mp ofTarget
    obtain ⟨kind, rfl⟩ := mem_operationBlock drafted
    exact ⟨kind, _, mem, rfl, .inr (.inr rfl)⟩

/-- The bindings of a compiled set: the registration, and for each other one a draft that was emitted. -/
theorem bindings_of_compile {c : Compiler} {lines : List String} {set : BindingSet}
    (h : c.compile lines = .ok set) :
    ∃ registration rest, set.bindings = registration :: rest ∧
      registration.action.kind = .register ∧
      ∀ b ∈ rest, ∃ d ∈ emitted c.features c.lifecycle (targets lines),
        b.target = d.target ∧ b.action = d.action := by
  rw [eq_compiled h]
  refine ⟨_, _, List.mapIdx_cons, rfl, fun b mem => ?_⟩
  obtain ⟨i, bound, rfl⟩ := List.mem_mapIdx.mp mem
  exact ⟨_, List.getElem_mem bound, rfl, rfl⟩

end Compiler

namespace Target

/-! ### Reading back -/

theorem parseLine_eq_ok_iff {number : Nat} {line : String} {t : Target} :
    parseLine number line = .ok t ↔ parse line = .ok t :=
  mapError_eq_ok_iff

/-- A target is read back from its text when each of its parts could have been read. -/
theorem parse_text_iff {t : Target} :
    parse t.text = .ok t ↔ t.entity ≠ "" ∧ separator ∉ t.entity.toList ∧ t.operation ≠ "" := by
  rw [parse_eq_ok_iff]
  tauto

/-- A target that a line of a target list writes is read back. -/
theorem parse_text_of_mem {lines : List String} {t : Target} (h : t ∈ Compiler.targets lines) :
    parse t.text = .ok t := by
  obtain ⟨line, -, read⟩ := List.mem_filterMap.mp h
  cases parsed : parse line with
  | error => rw [parsed] at read; cases read
  | ok t' =>
      rw [parsed] at read
      cases read
      rwa [text_of_parse parsed]

/-- **Reading and writing targets.**  A line that is read is the text of its target, a target is read back exactly when
its entity is not empty and without separators and its operation is not empty, and different lines are read as different
targets.  Where the names of the lifecycle are not empty, every target of a compiled set is read back but that of the
registration, which is the first one. -/
theorem read_back :
    (∀ number line t, parseLine number line = .ok t → t.text = line) ∧
    (∀ number t, parseLine number t.text = .ok t ↔
      t.entity ≠ "" ∧ separator ∉ t.entity.toList ∧ t.operation ≠ "") ∧
    (∀ number number' line line' t t', parseLine number line = .ok t →
      parseLine number' line' = .ok t' → line ≠ line' → t ≠ t') ∧
    ∀ (c : Compiler) lines set, c.lifecycle.constructor ≠ "" → c.lifecycle.completion ≠ "" →
      c.compile lines = .ok set →
      ∃ registration rest, set.bindings = registration :: rest ∧
        registration.action.kind = .register ∧
        ∀ b ∈ rest, b.action.kind ≠ .register ∧
          ∀ number, parseLine number b.target.text = .ok b.target := by
  refine ⟨fun number line t read => text_of_parse (parseLine_eq_ok_iff.mp read),
    fun number t => parseLine_eq_ok_iff.trans parse_text_iff,
    fun number number' line line' t t' read read' differ same => ?_,
    fun c lines set constructor completion compiled => ?_⟩
  · rw [parseLine_eq_ok_iff] at read read'
    exact differ (by rw [← text_of_parse read, ← text_of_parse read', same])
  · obtain ⟨registration, rest, bindings, registers, emitted⟩ := Compiler.bindings_of_compile compiled
    refine ⟨registration, rest, bindings, registers, fun b mem => ?_⟩
    obtain ⟨d, drafted, target, action⟩ := emitted b mem
    obtain ⟨kind, t, listed, entity, operation⟩ := Compiler.mem_emitted drafted
    obtain ⟨nonempty, separate, some_operation⟩ := parse_text_iff.mp (parse_text_of_mem listed)
    refine ⟨action ▸ kind, fun number => parseLine_eq_ok_iff.mpr (parse_text_iff.mpr ?_)⟩
    rw [target, entity]
    refine ⟨nonempty, separate, ?_⟩
    rcases operation with born | done | own
    · rwa [born]
    · rwa [done]
    · rwa [own]

/-- Separators in an operation and in both names of the lifecycle. -/
theorem read_back_of_separators :
    let c := Compiler.new { instanceCounts := true, callCounts := true }
      ⟨"H", "app.Main", "main", "registerMBean", "p:t=S"⟩ ⟨"#", "run#"⟩
    parseLine 1 "A#x#y" = .ok ⟨"A", "x#y"⟩ ∧ parseLine 2 "A#x#" = .ok ⟨"A", "x#"⟩ ∧
      (⟨"A", "x#y"⟩ : Target) ≠ ⟨"A", "x#"⟩ ∧
      ∃ set registration rest, c.compile ["A#x#y", "A#x#"] = .ok set ∧
        set.bindings = registration :: rest ∧ rest.length = 5 ∧
        ∀ b ∈ rest, parseLine 1 b.target.text = .ok b.target := by
  intro c
  obtain ⟨-, written, apart, compiled⟩ := read_back
  have read : parseLine 1 "A#x#y" = .ok ⟨"A", "x#y"⟩ := (written 1 ⟨"A", "x#y"⟩).mpr (by decide)
  have read' : parseLine 2 "A#x#" = .ok ⟨"A", "x#"⟩ := (written 2 ⟨"A", "x#"⟩).mpr (by decide)
  obtain ⟨set, succeeds⟩ : ∃ set, c.compile ["A#x#y", "A#x#"] = .ok set :=
    Compiler.compile_of_fine (by decide +kernel)
  obtain ⟨registration, rest, bindings, -, back⟩ :=
    compiled c _ set (by decide) (by decide) succeeds
  refine ⟨read, read', apart 1 2 _ _ _ _ read read' (by decide), set, registration, rest, succeeds,
    bindings, ?_, fun b mem => (back b mem).2 1⟩
  have size : set.bindings.length = 6 := by
    rw [Compiler.eq_compiled succeeds]
    decide +kernel
  rw [bindings] at size
  exact Nat.succ.inj size

end Target

end Metering
