import Metering.Proofs.History
import Metering.Proofs.Registry.Waiting

/-!
# Proofs — Registry — Entries

A history read back.  Each event makes an entry: its operation, what it answered, and the options that were in force
when it came, which are those that were fixed first (`options_run`).  The answers are those of the run
(`map_outcome_entries`).  What the registry holds is then said by what its entries tell, and a run is one more entry
at a time (`entries_concat`).
-/

namespace Metering.Registry
open History

/-! ### Options -/

/-- The options that an operation fixes, if none are fixed yet. -/
def fixes? : Operation → Option RecordOptions
  | .configure options => some options
  | _ => none

/-- The options in force after a history: those that were fixed first, and none of them before. -/
def inForce (events : List Event) : RecordOptions :=
  (events.findSome? fun e => fixes? e.operation).getD {}

theorem fixed_apply (r : Registry) (now : UInt64) (op : Operation) :
    (r.apply now op).2.fixed = r.fixed.or (fixes? op) := by
  cases op with
  | configure options =>
      change (r.configure options).2.fixed = _
      unfold configure
      cases h : r.fixed <;> simp [h, fixes?]
  | recordLifetime key id =>
      obtain ⟨lifetimes, step⟩ := r.apply_recordLifetime now key id
      rw [step]
      exact Option.or_none.symm
  | recordCallEnd key id =>
      obtain ⟨time, step⟩ := r.apply_recordCallEnd now key id
      rw [step]
      exact Option.or_none.symm
  | incrementExceptionExits key id =>
      obtain ⟨time, step⟩ := r.apply_incrementExceptionExits now key id
      rw [step]
      exact Option.or_none.symm
  | _ => exact Option.or_none.symm

theorem fixed_run (events : List Event) :
    (empty.run events).2.fixed = events.findSome? fun e => fixes? e.operation := by
  induction events using List.reverseRecOn with
  | nil => rfl
  | append_singleton events e ih =>
      rw [run_concat, fixed_apply, ih, List.findSome?_append]
      cases h : fixes? e.operation <;> simp [h]

/-- **Options.** -/
theorem options_run (events : List Event) : (empty.run events).2.options = inForce events := by
  rw [options, fixed_run, inForce]

/-- The options in force, where only one choice of options is ever fixed. -/
theorem inForce_eq {events : List Event} {options : RecordOptions}
    (only : ∀ o, .configure o ∈ events.map (·.operation) → o = options) :
    inForce events = if .configure options ∈ events.map (·.operation) then options else {} := by
  have fixes {op : Operation} {o : RecordOptions} : fixes? op = some o ↔ op = .configure o := by
    cases op <;> simp [fixes?]
  rw [inForce]
  cases h : events.findSome? fun e => fixes? e.operation with
  | none =>
      rw [List.findSome?_eq_none_iff] at h
      rw [if_neg]
      · rfl
      · intro mem
        obtain ⟨e, he, ho⟩ := List.mem_map.mp mem
        exact absurd (h e he) (by rw [fixes.mpr ho]; exact Option.some_ne_none options)
  | some o =>
      obtain ⟨e, he, ho⟩ := List.exists_of_findSome?_eq_some h
      have mem : .configure o ∈ events.map (·.operation) := List.mem_map.mpr ⟨e, he, fixes.mp ho⟩
      obtain rfl := only o mem
      rw [if_pos mem]
      rfl

/-! ### Entries -/

/-- What a history tells of one event. -/
structure Entry where
  operation : Operation
  outcome : Outcome
  /-- The options in force when the event came. -/
  options : RecordOptions

/-- The entry of an event after others. -/
def entryAfter (before : List Event) (e : Event) : Entry where
  operation := e.operation
  outcome := ((empty.run before).2.apply e.now e.operation).1
  options := inForce before

/-- The entries of a history. -/
def entries (events : List Event) : List Entry := mapBefore entryAfter events

theorem entries_concat (events : List Event) (e : Event) :
    entries (events ++ [e]) = entries events ++ [entryAfter events e] :=
  mapBefore_concat entryAfter events e

/-- The entries have the outcomes of the run. -/
theorem map_outcome_entries (events : List Event) :
    (entries events).map (·.outcome) = (empty.run events).1 := by
  induction events using List.reverseRecOn with
  | nil => rfl
  | append_singleton events e ih =>
      rw [entries_concat, List.map_append, ih, run_concat]
      rfl

theorem map_operation_entries (events : List Event) :
    (entries events).map (·.operation) = events.map (·.operation) := by
  induction events using List.reverseRecOn with
  | nil => rfl
  | append_singleton events e ih =>
      rw [entries_concat, List.map_append, ih, List.map_append]
      rfl

theorem length_entries (events : List Event) : (entries events).length = events.length := by
  rw [← List.length_map (·.operation), map_operation_entries, List.length_map]

/-- An entry is that of an event in its place. -/
theorem mem_entries {events : List Event} {x : Entry} :
    x ∈ entries events ↔
      ∃ before e after, events = before ++ e :: after ∧ x = entryAfter before e :=
  mem_mapBefore

end Metering.Registry
