import Metering.Fault
import Metering.Key
import Metering.Text.Quoted
import Metering.Text.Split

/-!
# Target

What is monitored: an entity and one of its operations, written `entity#operation`.  The first separator ends the
entity, so an operation may hold more of them.  Reading a line and writing the target are inverse (`text_of_parse`).
-/

namespace Metering

/-- An entity and one of its operations. -/
structure Target where
  entity : String
  operation : String
deriving DecidableEq

namespace Target

/-- Why a line is not a target. -/
inductive Flaw where
  | noSeparator
  | emptyEntity
  | emptyOperation
deriving DecidableEq

/-- The wording of a flaw, which quotes the line. -/
def Flaw.reason (line : String) : Flaw → String
  | noSeparator => "missing '" ++ String.singleton separator ++ "' separator in " ++ Text.quote line
  | emptyEntity => "empty entity in " ++ Text.quote line
  | emptyOperation => "empty operation in " ++ Text.quote line

/-- The target that a line writes. -/
def parse (line : String) : Except Flaw Target :=
  match Text.cut separator line.toList with
  | none => .error .noSeparator
  | some (entity, operation) =>
      if entity = [] then .error .emptyEntity
      else if operation = [] then .error .emptyOperation
      else .ok ⟨String.ofList entity, String.ofList operation⟩

/-- The target that the line of that number writes. -/
def parseLine (number : Nat) (line : String) : Except Fault Target :=
  (parse line).mapError fun flaw => .inputFormat number (flaw.reason line)

/-- The line that writes a target. -/
def text (t : Target) : String := t.entity ++ String.singleton separator ++ t.operation

/-- The key of the target's entity. -/
def entityKey (t : Target) : Key := Key.entity t.entity

/-- The key of the target's operation. -/
def operationKey (t : Target) : Key := Key.operation t.entity t.operation

theorem toList_text (t : Target) :
    t.text.toList = t.entity.toList ++ separator :: t.operation.toList := by
  simp [text]

theorem parse_eq_ok_iff {line : String} {t : Target} :
    parse line = .ok t ↔
      separator ∉ t.entity.toList ∧ t.entity ≠ "" ∧ t.operation ≠ "" ∧ line = t.text := by
  have empty {s : String} : s ≠ "" ↔ s.toList ≠ [] := by
    rw [ne_eq, ne_eq, String.toList_eq_nil_iff]
  constructor
  · intro h
    unfold parse at h
    split at h
    · cases h
    · rename_i e o hc
      split at h
      · cases h
      · split at h
        · cases h
        · rename_i he ho
          rw [Except.ok.injEq] at h
          subst h
          refine ⟨by simpa using Text.not_mem_of_cut hc, by simpa [empty] using he,
            by simpa [empty] using ho, ?_⟩
          rw [← String.toList_inj, toList_text]
          simpa using Text.append_of_cut hc
  · rintro ⟨hs, he, ho, rfl⟩
    have hc := Text.cut_append hs t.operation.toList
    rw [empty] at he ho
    rw [← toList_text] at hc
    simp [parse, hc, he, ho]

theorem text_of_parse {line : String} {t : Target} (h : parse line = .ok t) : t.text = line :=
  (parse_eq_ok_iff.mp h).2.2.2.symm

end Target

end Metering
