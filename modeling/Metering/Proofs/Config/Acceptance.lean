import Metering.Proofs.Config.Written

/-!
# Proofs — Config — Acceptance

Which configurations are accepted, and what is said of the others.  Each check is told by what it accepts (`Valid`) and
by what it says (`Complaint`); it does one or the other (`validate_cases`).  A text is read first, then the version is
looked at, then the compiler section and then the registration section, and only the first fault is told
(`ofText_cases`).
-/

namespace Metering.Config

open Yaml (Document)

/-! ### Sections -/

namespace CompilerSection

/-- No member is blank, and the files have different names. -/
structure Valid (s : CompilerSection) : Prop where
  filled : ∀ m ∈ s.toMembers, Text.isBlank m.2 = false
  apart : s.inputFile ≠ s.outputFile

/-- What is said of a section: its first blank member if it has one, and else that the files have the same name. -/
inductive Complaint (s : CompilerSection) : String → Prop
  | blank {before after : List (String × String)} {field text : String} :
      s.toMembers = before ++ (field, text) :: after → (∀ m ∈ before, Text.isBlank m.2 = false) →
        Text.isBlank text = true → Complaint s ("compiler." ++ field ++ " must not be empty")
  | same : (∀ m ∈ s.toMembers, Text.isBlank m.2 = false) → s.inputFile = s.outputFile →
      Complaint s "compiler.output_file must differ from compiler.input_file"

theorem Complaint.not_valid {s : CompilerSection} {reason : String} (h : s.Complaint reason) : ¬ s.Valid := by
  rintro ⟨filled, apart⟩
  cases h with
  | blank split _ blank =>
      have there := filled _ (split ▸ List.mem_append_right _ List.mem_cons_self)
      rw [blank] at there
      cases there
  | same _ same => exact apart same

theorem validate_eq (s : CompilerSection) :
    s.validate = match s.toMembers.find? fun m => Text.isBlank m.2 with
      | some m => .error (.config ("compiler." ++ m.1 ++ " must not be empty"))
      | none =>
          if s.inputFile = s.outputFile then
            .error (.config "compiler.output_file must differ from compiler.input_file")
          else .ok () := by
  have texts : [("compiler.input_file", s.inputFile), ("compiler.output_file", s.outputFile),
      ("compiler.helper", s.helper), ("compiler.constructor", s.constructor),
      ("compiler.lifecycle_method", s.lifecycleMethod)] =
        s.toMembers.map fun m => ("compiler." ++ m.1, m.2) := by
    simp [toMembers, names]
  have first : firstBlank (s.toMembers.map fun m => ("compiler." ++ m.1, m.2)) =
      (s.toMembers.find? fun m => Text.isBlank m.2).map fun m => "compiler." ++ m.1 := by
    rw [firstBlank, List.find?_map, Option.map_map]
    rfl
  rw [validate, texts, first]
  cases s.toMembers.find? fun m => Text.isBlank m.2 with
  | none => rfl
  | some => rfl

theorem validate_cases (s : CompilerSection) :
    s.Valid ∧ s.validate = .ok () ∨ ∃ reason, s.Complaint reason ∧ s.validate = .error (.config reason) := by
  rw [validate_eq]
  split
  · rename_i m found
    obtain ⟨blank, before, after, split, first⟩ := List.find?_eq_some_iff_append.mp found
    exact .inr ⟨_, .blank split (fun m hm => by simpa using first m hm) blank, rfl⟩
  · rename_i none
    have filled : ∀ m ∈ s.toMembers, Text.isBlank m.2 = false := fun m hm => by
      simpa using List.find?_eq_none.mp none m hm
    split
    · exact .inr ⟨_, .same filled ‹_›, rfl⟩
    · exact .inl ⟨⟨filled, ‹_›⟩, rfl⟩

end CompilerSection

namespace RegistrationSection

/-- The entity, the operation and the action are not empty, and the object name has its form. -/
structure Valid (s : RegistrationSection) : Prop where
  filled : s.entity ≠ "" ∧ s.operation ≠ "" ∧ s.action ≠ ""
  named : ObjectName.validate s.objectName = .ok ()

/-- What is said of a section: that a member is empty, or what is wrong with the object name. -/
inductive Complaint (s : RegistrationSection) : String → Prop
  | empty : s.entity = "" ∨ s.operation = "" ∨ s.action = "" →
      Complaint s "registration.entity, operation and action must not be empty"
  | unnamed {fault : Fault} : s.entity ≠ "" ∧ s.operation ≠ "" ∧ s.action ≠ "" →
      ObjectName.validate s.objectName = .error fault →
        Complaint s ("registration.object_name: " ++ fault.message)

theorem Complaint.not_valid {s : RegistrationSection} {reason : String} (h : s.Complaint reason) :
    ¬ s.Valid := by
  rintro ⟨filled, named⟩
  cases h with
  | empty empty => tauto
  | unnamed _ unnamed =>
      rw [named] at unnamed
      cases unnamed

theorem validate_cases (s : RegistrationSection) :
    s.Valid ∧ s.validate = .ok () ∨ ∃ reason, s.Complaint reason ∧ s.validate = .error (.config reason) := by
  unfold validate
  split
  · exact .inr ⟨_, .empty ‹_›, rfl⟩
  · rename_i filled
    simp only [not_or] at filled
    cases named : ObjectName.validate s.objectName with
    | error => exact .inr ⟨_, .unnamed filled named, rfl⟩
    | ok => exact .inl ⟨⟨filled, named⟩, rfl⟩

end RegistrationSection

/-! ### Texts -/

variable {c : Config}

theorem validate_eq (c : Config) :
    c.validate =
      if c.version ≠ 1 then .error .unsupportedVersion
      else c.compiler.validate >>= fun _ => c.registration.validate := by
  unfold validate
  split
  · rfl
  · rfl

/-- A configuration is valid if its version is understood and its sections are valid. -/
theorem validate_eq_ok_iff :
    c.validate = .ok () ↔ c.version = 1 ∧ c.compiler.Valid ∧ c.registration.Valid := by
  rw [validate_eq]
  split
  · rename_i unknown
    exact ⟨fun h => (by cases h), fun h => absurd h.1 unknown⟩
  · rename_i known
    rcases c.compiler.validate_cases with ⟨compiler, passed⟩ | ⟨reason, complaint, failed⟩
    · rcases c.registration.validate_cases with ⟨registration, passed'⟩ | ⟨reason, complaint, failed⟩
      · rw [passed]
        exact ⟨fun _ => ⟨Decidable.of_not_not known, compiler, registration⟩, fun _ => passed'⟩
      · rw [passed]
        refine ⟨fun h => ?_, fun h => absurd h.2.2 complaint.not_valid⟩
        rw [bind_ok, failed] at h
        cases h
    · rw [failed]
      exact ⟨fun h => (by cases h), fun h => absurd h.2.1 complaint.not_valid⟩

/-- The output of a valid configuration does not have the name of the input. -/
theorem ne_of_validate (valid : c.validate = .ok ()) : c.compiler.inputFile ≠ c.compiler.outputFile :=
  (validate_eq_ok_iff.mp valid).2.1.apart

/-- A text in which a configuration is written is accepted or refused for what this says. -/
theorem ofText_of_written {text : String} (written : Written (.ofText text) c) :
    ofText text = c.validate >>= fun _ => .ok c := by
  rw [ofText, ofDocument_eq_ok_iff.mpr written]
  rfl

theorem ofText_eq_ok_iff {text : String} :
    ofText text = .ok c ↔
      Written (.ofText text) c ∧ c.version = 1 ∧ c.compiler.Valid ∧ c.registration.Valid := by
  rw [← validate_eq_ok_iff]
  constructor
  · intro accepted
    obtain ⟨c', read, checked⟩ := bind_eq_ok_iff.mp accepted
    obtain ⟨⟨⟩, valid, same⟩ := bind_eq_ok_iff.mp checked
    cases same
    exact ⟨ofDocument_eq_ok_iff.mp (mapError_eq_ok_iff.mp read), valid⟩
  · rintro ⟨written, valid⟩
    rw [ofText_of_written written, valid]
    rfl

theorem validate_of_ofText {text : String} (accepted : ofText text = .ok c) : c.validate = .ok () :=
  validate_eq_ok_iff.mpr (ofText_eq_ok_iff.mp accepted).2

/-- **Acceptance.**  A text is accepted if it writes a configuration of version 1 whose sections are valid, and then
this is the configuration.  What is said of other texts is the first of four things: that no configuration is written,
that the version is not understood, what is wrong with the compiler section, and what with the registration. -/
theorem ofText_cases (text : String) :
    (∀ c, ofText text = .ok c ↔
        Written (.ofText text) c ∧ c.version = 1 ∧ c.compiler.Valid ∧ c.registration.Valid) ∧
      ((∀ c, ¬ Written (.ofText text) c) → ∃ refusal, ofDocument (.ofText text) = .error refusal ∧
        ofText text = .error (.config refusal.message)) ∧
      ∀ c, Written (.ofText text) c →
        (c.version ≠ 1 → ofText text = .error .unsupportedVersion) ∧
        (c.version = 1 → ¬ c.compiler.Valid → ∃ reason, c.compiler.Complaint reason ∧
          ofText text = .error (.config reason)) ∧
        (c.version = 1 → c.compiler.Valid → ¬ c.registration.Valid → ∃ reason,
          c.registration.Complaint reason ∧ ofText text = .error (.config reason)) := by
  refine ⟨fun c => ofText_eq_ok_iff, fun unwritten => ?_, fun c written => ⟨fun unknown => ?_,
    fun known invalid => ?_, fun known compiler invalid => ?_⟩⟩
  · cases read : ofDocument (.ofText text) with
    | error refusal =>
        refine ⟨refusal, rfl, ?_⟩
        rw [ofText, read]
        rfl
    | ok c => exact absurd (ofDocument_eq_ok_iff.mp read) (unwritten c)
  all_goals rw [ofText_of_written written, validate_eq]
  · rw [if_pos unknown]
    rfl
  · obtain ⟨valid, -⟩ | ⟨reason, complaint, failed⟩ := c.compiler.validate_cases
    · exact absurd valid invalid
    · refine ⟨reason, complaint, ?_⟩
      rw [if_neg (not_not_intro known), failed]
      rfl
  · obtain ⟨-, passed⟩ | ⟨reason, complaint, -⟩ := c.compiler.validate_cases
    · obtain ⟨valid, -⟩ | ⟨reason, complaint, failed⟩ := c.registration.validate_cases
      · exact absurd valid invalid
      · refine ⟨reason, complaint, ?_⟩
        rw [if_neg (not_not_intro known), passed, bind_ok, failed]
        rfl
    · exact absurd compiler complaint.not_valid

/-- Of two faults in a text, one is told. -/
theorem ofText_of_two_faults :
    ofText "version: 2\ncompiler:\n  helper: ''\n" = .error .unsupportedVersion ∧
      ∃ reason, ({ helper := "" } : CompilerSection).Complaint reason ∧
        ofText "version: 1\ncompiler:\n  helper: ''\nregistration:\n  entity: ''\n" = .error (.config reason) := by
  have written : Written (.ofText "version: 2\ncompiler:\n  helper: ''\n")
      { version := 2, compiler := { helper := "" } } := ofDocument_eq_ok_iff.mp (by decide +kernel)
  have written' : Written (.ofText "version: 1\ncompiler:\n  helper: ''\nregistration:\n  entity: ''\n")
      { version := 1, compiler := { helper := "" }, registration := { entity := "" } } :=
    ofDocument_eq_ok_iff.mp (by decide +kernel)
  have blank : ¬ ({ helper := "" } : CompilerSection).Valid := fun valid =>
    absurd (valid.filled ("helper", "") (by decide)) (by decide)
  exact ⟨((ofText_cases _).2.2 _ written).1 (by decide), ((ofText_cases _).2.2 _ written').2.1 rfl blank⟩

end Metering.Config
