import Metering.Proofs.Registry.Account
import Metering.Proofs.Registry.Steps

/-!
# Proofs — Registry — Calls

Calls and their times as an account (`callAccount`): a call begins when its start is noted, and ends at its normal or
its exceptional exit; the exit counts for the call's key if the start was waiting.
-/

namespace Metering.Registry

/-- How many times of a key were taken in. -/
def timed (t : Timings) (k : Key) : UInt64 := (t.get? k).elim 0 (·.completed)

theorem elim_execTime? (r : Registry) (k : Key) :
    (r.execTime? k).elim 0 (·.completed.toNat) = (timed r.execTimes k).toNat := by
  rw [execTime?, timed]
  cases r.execTimes.get? k <;> rfl

theorem timed_observe (t : Timings) (k k' : Key) (elapsed : UInt64) (trackMin trackMax : Bool) :
    timed (t.observe k elapsed trackMin trackMax) k' = timed t k' + if k = k' then 1 else 0 := by
  rw [timed, Timings.get?_observe, timed]
  by_cases h : k = k'
  · subst h
    rw [if_pos rfl, if_pos rfl, Option.elim_some, Timing.record]
    cases t.get? k <;> rfl
  · rw [if_neg h, if_neg h, UInt64.add_zero]

theorem contains_observe (t : Timings) (k k' : Key) (elapsed : UInt64) (trackMin trackMax : Bool) :
    (t.observe k elapsed trackMin trackMax).contains k' = (t.contains k' || decide (k = k')) := by
  rw [Table.contains, Timings.get?_observe, Table.contains]
  by_cases h : k = k' <;> simp [h]

/-- The call that an operation begins. -/
def callBegun : Operation → Option (Key × UInt64)
  | .recordCallStart key id => some (key, id)
  | _ => none

/-- The call that an operation ends, normally or exceptionally. -/
def callEnded : Operation → Option (Key × UInt64)
  | .recordCallEnd key id | .incrementExceptionExits key id => some (key, id)
  | _ => none

theorem callEnded_eq_some {op : Operation} {key : Key} {id : UInt64}
    (h : callEnded op = some (key, id)) :
    op = .recordCallEnd key id ∨ op = .incrementExceptionExits key id := by
  cases op with
  | recordCallEnd | incrementExceptionExits => cases h; simp
  | _ => cases h

/-- What an operation that ends a call does to the calls and their times. -/
theorem apply_of_callEnded (r : Registry) (now : UInt64) {op : Operation} {key : Key} {id : UInt64}
    (h : callEnded op = some (key, id)) :
    (r.apply now op).2.callStarts = (r.callStarts.take (key, id)).2 ∧
      ∃ time, (r.apply now op).2.execTimes =
        if r.callStarts.contains (key, id) then
          r.execTimes.observe key time r.options.execTimeMin r.options.execTimeMax
        else r.execTimes := by
  rcases callEnded_eq_some h with rfl | rfl
  · obtain ⟨time, step⟩ := r.apply_recordCallEnd now key id
    rw [step]
    exact ⟨rfl, time, rfl⟩
  · obtain ⟨time, step⟩ := r.apply_incrementExceptionExits now key id
    rw [step]
    exact ⟨rfl, time, rfl⟩

/-- What any other operation does to them: it may begin a call. -/
theorem apply_of_callEnded_eq_none (r : Registry) (now : UInt64) {op : Operation}
    (h : callEnded op = none) :
    (r.apply now op).2.callStarts =
        (match callBegun op with
          | some c => (r.callStarts.start c now).2
          | none => r.callStarts) ∧
      (r.apply now op).2.execTimes = r.execTimes := by
  cases op with
  | configure options =>
      obtain ⟨fixed, step⟩ := r.apply_configure now options
      rw [step]
      exact ⟨rfl, rfl⟩
  | recordLifetime key id =>
      obtain ⟨lifetimes, step⟩ := r.apply_recordLifetime now key id
      rw [step]
      exact ⟨rfl, rfl⟩
  | recordCallEnd | incrementExceptionExits => cases h
  | _ => exact ⟨rfl, rfl⟩

/-- Calls, with how many times of a key were taken in. -/
def callAccount : Account (Key × UInt64) where
  pending := callStarts
  total r := timed r.execTimes
  holds r := r.execTimes.contains
  begins := callBegun
  ends := callEnded
  counted op := (callEnded op).map Prod.fst
  apart op := by cases op <;> simp [callBegun, callEnded]
  neutral _ := ⟨rfl, rfl, rfl⟩
  contains_empty _ := rfl
  total_empty _ := rfl
  holds_empty _ := rfl
  contains_apply r now op c := by
    cases he : callEnded op with
    | some c' =>
        have idle : callBegun op = none := by
          rcases callEnded_eq_some he with rfl | rfl <;> rfl
        rw [(r.apply_of_callEnded now he).1, contains_take, idle]
        simp
    | none =>
        rw [(r.apply_of_callEnded_eq_none now he).1, if_neg (by simp)]
        cases hb : callBegun op with
        | none => simp
        | some c' => rw [contains_start]; simp
  total_apply r now op k := by
    cases he : callEnded op with
    | some c =>
        obtain ⟨time, ht⟩ := (r.apply_of_callEnded now he).2
        rw [ht]
        by_cases found : r.callStarts.contains c <;> simp [found, timed_observe]
    | none => simp [(r.apply_of_callEnded_eq_none now he).2]
  holds_apply r now op k := by
    cases he : callEnded op with
    | some c =>
        obtain ⟨time, ht⟩ := (r.apply_of_callEnded now he).2
        rw [ht]
        by_cases found : r.callStarts.contains c <;> simp [found, contains_observe]
    | none => simp [(r.apply_of_callEnded_eq_none now he).2]

theorem mark_callAccount (c : Key × UInt64) (op : Operation) :
    callAccount.mark c op =
      if callEnded op = some c then some false
      else if callBegun op = some c then some true else none :=
  rfl

/-- Where no call begins, none is completed. -/
theorem settled_calls_eq_zero {ops : List Operation} (h : ops.filterMap callBegun = []) (k : Key) :
    callAccount.settled k ops = 0 := by
  refine callAccount.settled_eq_zero h fun op _ counted none_ended => ?_
  change (callEnded op).map Prod.fst = some k at counted
  change callEnded op = none at none_ended
  rw [none_ended] at counted
  cases counted

end Metering.Registry
