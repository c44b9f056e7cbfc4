import Metering.Registry.History

/-!
# Proofs — Registry — Steps

What one operation makes of a registry, for the operations whose result depends on what the registry holds: each changes
some parts and leaves the others alone.  The other operations are plain changes of one part.
-/

namespace Metering.Registry

/-- Fixing the options changes nothing else. -/
theorem apply_configure (r : Registry) (now : UInt64) (options : RecordOptions) :
    ∃ fixed, (r.apply now (.configure options)).2 = { r with fixed } := by
  change ∃ fixed, (r.configure options).2 = { r with fixed }
  unfold configure
  split
  · exact ⟨r.fixed, rfl⟩
  · exact ⟨some options, rfl⟩

/-- At the end of a life its creation no longer waits, and one instance more has ended if it did. -/
theorem apply_recordLifetime (r : Registry) (now : UInt64) (key : Key) (id : UInt64) :
    ∃ lifetimes, (r.apply now (.recordLifetime key id)).2 = { r with
      births := (r.births.take id).2
      lifetimes
      finished := if r.births.contains id then r.finished.increment key else r.finished } := by
  change ∃ lifetimes, (r.recordLifetime now key id).2 = _
  unfold recordLifetime Pending.take Table.contains
  cases r.births.get? id with
  | none => exact ⟨r.lifetimes, by simp⟩
  | some born =>
      exact ⟨r.lifetimes.observe key (elapsed born now) r.options.lifetimeMin r.options.lifetimeMax,
        by simp⟩

/-- At the end of a call it no longer waits, and one time more is taken in if it did. -/
theorem finishCall_eq (r : Registry) (now : UInt64) (key : Key) (id : UInt64) :
    ∃ time, (r.finishCall now key id).2 = { r with
      callStarts := (r.callStarts.take (key, id)).2
      execTimes :=
        if r.callStarts.contains (key, id) then
          r.execTimes.observe key time r.options.execTimeMin r.options.execTimeMax
        else r.execTimes } := by
  unfold finishCall Pending.take Table.contains
  cases r.callStarts.get? (key, id) with
  | none => exact ⟨0, by simp⟩
  | some started => exact ⟨elapsed started now, by simp⟩

theorem apply_recordCallEnd (r : Registry) (now : UInt64) (key : Key) (id : UInt64) :
    ∃ time, (r.apply now (.recordCallEnd key id)).2 = { r with
      callStarts := (r.callStarts.take (key, id)).2
      execTimes :=
        if r.callStarts.contains (key, id) then
          r.execTimes.observe key time r.options.execTimeMin r.options.execTimeMax
        else r.execTimes } := by
  have finish : (r.apply now (.recordCallEnd key id)).2 = (r.finishCall now key id).2 := by
    change (r.recordCallEnd now key id).2 = _
    unfold recordCallEnd
    split <;> simp [*]
  rw [finish]
  exact r.finishCall_eq now key id

/-- An exceptional exit is counted, and does what the end of a call does. -/
theorem apply_incrementExceptionExits (r : Registry) (now : UInt64) (key : Key) (id : UInt64) :
    ∃ time, (r.apply now (.incrementExceptionExits key id)).2 = { r with
      exceptionExits := r.exceptionExits.increment key
      callStarts := (r.callStarts.take (key, id)).2
      execTimes :=
        if r.callStarts.contains (key, id) then
          r.execTimes.observe key time r.options.execTimeMin r.options.execTimeMax
        else r.execTimes } :=
  finishCall_eq { r with exceptionExits := r.exceptionExits.increment key } now key id

/-- The end of a call that waits does not fail. -/
theorem fault?_recordCallEnd {r : Registry} {key : Key} {id : UInt64}
    (h : r.callStarts.contains (key, id) = true) (now : UInt64) :
    (r.apply now (.recordCallEnd key id)).1.fault? = none := by
  obtain ⟨started, hs⟩ := Option.isSome_iff_exists.mp h
  change (Outcome.ofCompletion (r.recordCallEnd now key id).1).fault? = none
  rw [recordCallEnd, finishCall, Pending.take, hs]
  rfl

/-- An operation that fails changes nothing. -/
theorem apply_of_failed {r : Registry} {now : UInt64} {op : Operation} {fault : Fault}
    (h : (r.apply now op).1 = .failed fault) : (r.apply now op).2 = r := by
  cases op with
  | recordLifetime key id =>
      change Outcome.ofCompletion (r.recordLifetime now key id).1 = _ at h
      change (r.recordLifetime now key id).2 = r
      cases waits : r.births.get? id with
      | none => rw [recordLifetime_of_missing waits]
      | some born =>
          rw [recordLifetime, Pending.take, waits] at h
          cases h
  | recordCallEnd key id =>
      change Outcome.ofCompletion (r.recordCallEnd now key id).1 = _ at h
      change (r.recordCallEnd now key id).2 = r
      cases waits : r.callStarts.get? (key, id) with
      | none => rw [recordCallEnd, finishCall_of_missing waits]
      | some started =>
          rw [recordCallEnd, finishCall, Pending.take, waits] at h
          cases h
  | _ => cases h

end Metering.Registry
