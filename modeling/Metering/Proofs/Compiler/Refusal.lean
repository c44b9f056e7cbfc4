import Metering.Compiler
import Metering.Proofs.Attempt

/-!
# Proofs — Compiler — Refusal

Target lists that cannot be compiled.  A line is malformed when, without its carriage returns, it is neither blank nor
written as targets are (`Malformed`).  It then has exactly one flaw, which is the one that is reported
(`Target.parse_eq_error_iff`).

`lineRead` says what reading one line may lead to.  As only lines that write targets are kept among those seen
(`Sound`), no malformed line can be passed over as a repetition; so reading goes on to the end, or stops at the first
malformed line with its number among all lines, and what follows it is not looked at (`refused_at_first`).
-/

namespace Metering

namespace Target

/-! ### Flaws -/

/-- A line that is written as targets are. -/
def Written (line : String) : Prop :=
  ∃ t : Target, separator ∉ t.entity.toList ∧ t.entity ≠ "" ∧ t.operation ≠ "" ∧ line = t.text

/-- The lines that have a flaw. -/
def Flaw.Of (line : String) : Flaw → Prop
  | noSeparator => separator ∉ line.toList
  | emptyEntity => ∃ rest, line = String.singleton separator ++ rest
  | emptyOperation => ∃ entity, separator ∉ entity.toList ∧ entity ≠ "" ∧
      line = entity ++ String.singleton separator

theorem written_iff {line : String} : Written line ↔ ∃ t, parse line = .ok t :=
  exists_congr fun _ => parse_eq_ok_iff.symm

instance (line : String) : Decidable (Written line) :=
  decidable_of_iff ((parse line).toOption.isSome = true) <| by
    rw [written_iff, Option.isSome_iff_exists]
    exact exists_congr fun t => by cases parse line <;> simp [Except.toOption]

theorem parse_of_flaw {line : String} {flaw : Flaw} (h : flaw.Of line) :
    parse line = .error flaw := by
  cases flaw with
  | noSeparator => rw [parse, Text.cut_eq_none_iff.mpr h]
  | emptyEntity =>
      obtain ⟨rest, rfl⟩ := h
      rw [parse, String.toList_append, String.toList_singleton, List.singleton_append,
        Text.cut_cons_self]
      exact if_pos rfl
  | emptyOperation =>
      obtain ⟨entity, separate, ne, rfl⟩ := h
      rw [ne_eq, ← String.toList_eq_nil_iff] at ne
      rw [parse, String.toList_append, String.toList_singleton, Text.cut_append separate]
      exact (if_neg ne).trans (if_pos rfl)

theorem flaw_of_parse {line : String} {flaw : Flaw} (h : parse line = .error flaw) :
    flaw.Of line := by
  unfold parse at h
  split at h
  · rename_i none
    cases h
    exact Text.cut_eq_none_iff.mp none
  · rename_i entity operation cut
    obtain ⟨separate, written⟩ := Text.cut_eq_some_iff.mp cut
    split at h
    · rename_i empty
      cases h
      refine ⟨String.ofList operation, ?_⟩
      rw [← String.toList_inj, written, empty]
      simp
    · rename_i ne
      split at h
      · rename_i empty
        cases h
        refine ⟨String.ofList entity, by rwa [String.toList_ofList], by simpa using ne, ?_⟩
        rw [← String.toList_inj, written, empty]
        simp
      · cases h

/-- A line that writes no target has one flaw, and this is why it is refused. -/
theorem parse_eq_error_iff {line : String} {flaw : Flaw} :
    parse line = .error flaw ↔ flaw.Of line :=
  ⟨flaw_of_parse, parse_of_flaw⟩

theorem exists_flaw {line : String} (h : ¬ Written line) :
    ∃ flaw : Flaw, ∀ f : Flaw, f.Of line ↔ f = flaw := by
  cases parsed : parse line with
  | ok t => exact absurd (written_iff.mpr ⟨t, parsed⟩) h
  | error flaw =>
      refine ⟨flaw, fun f => ?_⟩
      rw [← parse_eq_error_iff, parsed, Except.error.injEq, eq_comm]

end Target

namespace Compiler
open Target (Flaw)

/-- A line that is neither blank nor written as targets are, without its carriage returns. -/
def Malformed (raw : String) : Prop :=
  Text.isBlank (Text.withoutReturns raw) = false ∧ ¬ Target.Written (Text.withoutReturns raw)

instance (raw : String) : Decidable (Malformed raw) := inferInstanceAs (Decidable (_ ∧ ¬ _))

/-! ### One line -/

/-- What reading a line may lead to, by what is left of it without its carriage returns. -/
inductive LineRead (p : Progress) (number : Nat) (line : String) : Except Fault Progress → Prop where
  | passed (h : Text.isBlank line = true ∨ line ∈ p.lines) : LineRead p number line (.ok p)
  | added {p' : Progress} (written : Target.Written line) (lines : p'.lines = line :: p.lines)
      (drafts : p.drafts <:+ p'.drafts) : LineRead p number line (.ok p')
  | refused {flaw : Flaw} (blank : Text.isBlank line = false) (new : line ∉ p.lines)
      (flawed : flaw.Of line) :
      LineRead p number line (.error (.inputFormat number (flaw.reason line)))

theorem lineRead (c : Compiler) (p : Progress) (number : Nat) (raw : String) :
    LineRead p number (Text.withoutReturns raw) (c.readLine p number raw) := by
  unfold readLine
  by_cases h : Text.isBlank (Text.withoutReturns raw) ∨ Text.withoutReturns raw ∈ p.lines
  · simp only [if_pos h]
    exact .passed h
  · rw [not_or, Bool.not_eq_true] at h
    simp only [h, Bool.false_eq_true, or_self, if_false, Target.parseLine]
    cases parsed : Target.parse (Text.withoutReturns raw) with
    | error flaw => exact .refused h.1 h.2 (Target.flaw_of_parse parsed)
    | ok t => exact .added (Target.written_iff.mpr ⟨t, parsed⟩) rfl (List.suffix_append _ _)

/-- Only lines that write targets are kept among those seen. -/
def Sound (p : Progress) : Prop := ∀ line ∈ p.lines, Target.Written line

theorem sound_nil : Sound {} := fun _ h => (List.not_mem_nil h).elim

section
variable {c : Compiler} {p : Progress} {raw : String}

theorem Sound.step (h : Sound p) (fine : ¬ Malformed raw) (number : Nat) :
    ∃ p', c.readLine p number raw = .ok p' ∧ Sound p' := by
  have read := lineRead c p number raw
  generalize c.readLine p number raw = result at read
  cases read with
  | passed _ => exact ⟨p, rfl, h⟩
  | added written lines _ =>
      refine ⟨_, rfl, ?_⟩
      rw [Sound, lines]
      exact List.forall_mem_cons.mpr ⟨written, h⟩
  | refused blank _ flawed =>
      -- what has a flaw writes no target
      refine absurd ⟨blank, fun written => ?_⟩ fine
      obtain ⟨t, parsed⟩ := Target.written_iff.mp written
      rw [Target.parse_of_flaw flawed] at parsed
      cases parsed

/-- A malformed line is none of those seen, so it is looked at. -/
theorem Sound.refuse (h : Sound p) (bad : Malformed raw) {flaw : Flaw}
    (flawed : flaw.Of (Text.withoutReturns raw)) (number : Nat) :
    c.readLine p number raw =
      .error (.inputFormat number (flaw.reason (Text.withoutReturns raw))) := by
  have read := lineRead c p number raw
  generalize c.readLine p number raw = result at read
  cases read with
  | passed skipped =>
      rcases skipped with blank | seen
      · rw [bad.1] at blank
        cases blank
      · exact absurd (h _ seen) bad.2
  | added written _ _ => exact absurd written bad.2
  | refused _ _ flawed' =>
      have same := (Target.parse_of_flaw flawed).symm.trans (Target.parse_of_flaw flawed')
      cases same
      rfl

end

/-! ### All lines -/

/-- Reading goes on with what follows where it stands, and lines are numbered through. -/
theorem readLines_append (c : Compiler) (p : Progress) (number : Nat) (xs ys : List String) :
    c.readLines p number (xs ++ ys) =
      c.readLines p number xs >>= fun p' => c.readLines p' (number + xs.length) ys := by
  induction xs generalizing p number with
  | nil => rfl
  | cons raw rest ih =>
      rw [List.cons_append, readLines, readLines]
      cases c.readLine p number raw with
      | error fault => rfl
      | ok p' =>
          change c.readLines p' (number + 1) (rest ++ ys) = _
          rw [ih, List.length_cons, Nat.add_right_comm, Nat.add_assoc]

section
variable {c : Compiler}

theorem Sound.run {lines : List String} (fine : ∀ raw ∈ lines, ¬ Malformed raw) {p : Progress}
    (h : Sound p) (number : Nat) : ∃ p', c.readLines p number lines = .ok p' ∧ Sound p' := by
  induction lines generalizing p number with
  | nil => exact ⟨p, rfl, h⟩
  | cons raw rest ih =>
      rw [List.forall_mem_cons] at fine
      obtain ⟨p', read, h'⟩ := h.step (c := c) fine.1 number
      rw [readLines, read]
      exact ih fine.2 h' (number + 1)

theorem compile_of_fine {lines : List String} (fine : ∀ raw ∈ lines, ¬ Malformed raw) :
    ∃ set, c.compile lines = .ok set := by
  obtain ⟨p, read, -⟩ := Sound.run (c := c) fine sound_nil 1
  exact ⟨_, by rw [compile, read]; rfl⟩

theorem compile_of_first {before : List String} (fine : ∀ raw ∈ before, ¬ Malformed raw)
    {raw : String} (bad : Malformed raw) {flaw : Flaw}
    (flawed : flaw.Of (Text.withoutReturns raw)) (after : List String) :
    c.compile (before ++ raw :: after) =
      .error (.inputFormat (before.length + 1) (flaw.reason (Text.withoutReturns raw))) := by
  obtain ⟨p, read, sound⟩ := Sound.run (c := c) fine sound_nil 1
  rw [compile, readLines_append, read, bind_ok, readLines, sound.refuse bad flawed, Nat.add_comm]
  rfl

/-- **To the end or to the first malformed line.** -/
theorem compile_or_refuse (c : Compiler) (lines : List String) :
    ((∀ raw ∈ lines, ¬ Malformed raw) ∧ ∃ set, c.compile lines = .ok set) ∨
      ((∃ raw ∈ lines, Malformed raw) ∧
        ∃ number reason, c.compile lines = .error (.inputFormat number reason)) := by
  cases first : lines.find? fun raw => Malformed raw with
  | none =>
      have fine : ∀ raw ∈ lines, ¬ Malformed raw := by simpa using first
      exact .inl ⟨fine, compile_of_fine fine⟩
  | some raw =>
      obtain ⟨bad, before, after, rfl, fine⟩ := List.find?_eq_some_iff_append.mp first
      replace bad : Malformed raw := of_decide_eq_true bad
      obtain ⟨flaw, unique⟩ := Target.exists_flaw bad.2
      exact .inr ⟨⟨raw, by simp, bad⟩, _, _,
        compile_of_first (by simpa using fine) bad ((unique flaw).mpr rfl) after⟩

end

theorem exists_fault_iff (c : Compiler) (lines : List String) :
    (∃ fault, c.compile lines = .error fault) ↔ ∃ raw ∈ lines, Malformed raw := by
  rcases compile_or_refuse c lines with ⟨fine, set, compiled⟩ | ⟨bad, number, reason, refused⟩
  · refine ⟨?_, fun ⟨raw, mem, bad⟩ => absurd bad (fine raw mem)⟩
    rintro ⟨fault, refused⟩
    rw [compiled] at refused
    cases refused
  · exact ⟨fun _ => bad, fun _ => ⟨_, refused⟩⟩

/-- **Refusal.**  Compiling fails exactly when some line is malformed.  The fault has the number of the first such line
among all lines and tells its one flaw; whatever lines follow do not change it. -/
theorem refused_at_first (c : Compiler) (lines : List String) :
    ((∃ fault, c.compile lines = .error fault) ↔ ∃ raw ∈ lines, Malformed raw) ∧
      ∀ before raw after, lines = before ++ raw :: after → (∀ r ∈ before, ¬ Malformed r) →
        Malformed raw →
          ∃ flaw : Flaw, (∀ f : Flaw, f.Of (Text.withoutReturns raw) ↔ f = flaw) ∧
            ∀ more, c.compile (before ++ raw :: more) =
              .error (.inputFormat (before.length + 1) (flaw.reason (Text.withoutReturns raw))) := by
  refine ⟨exists_fault_iff c lines, fun before raw after _ fine bad => ?_⟩
  obtain ⟨flaw, unique⟩ := Target.exists_flaw bad.2
  exact ⟨flaw, unique, compile_of_first fine bad ((unique flaw).mpr rfl)⟩

/-- Blank and repeated lines are numbered with the others, and a malformed line behind the first one is not reported. -/
theorem refused_at_fifth_line :
    let c := Compiler.new .all ⟨"H", "app.Main", "main", "registerMBean", "p:t=S"⟩
    let before := ["A#x\r", "", "A#x", " \r\r"]
    (∀ r ∈ before, ¬ Malformed r) ∧ Malformed "#y\r" ∧ Malformed "A#" ∧
      c.compile (before ++ ["#y\r", "A#"]) = .error (.inputFormat 5 "empty entity in \"#y\"") := by
  intro c before
  have fine : ∀ r ∈ before, ¬ Malformed r := by decide +kernel
  have bad : Malformed "#y\r" := by decide +kernel
  obtain ⟨flaw, unique, refused⟩ := (refused_at_first c (before ++ ["#y\r", "A#"])).2 before "#y\r"
    ["A#"] rfl fine bad
  have empty : Flaw.emptyEntity = flaw := (unique .emptyEntity).mp ⟨"y", by decide +kernel⟩
  have reason : Flaw.emptyEntity.reason (Text.withoutReturns "#y\r") = "empty entity in \"#y\"" := by
    decide +kernel
  refine ⟨fine, bad, by decide +kernel, ?_⟩
  rw [refused, ← empty, reason]
  rfl

end Compiler

end Metering
