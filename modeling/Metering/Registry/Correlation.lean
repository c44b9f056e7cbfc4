import Metering.Table

/-!
# Registry — Correlation

Where the numbers come from that tie a start to its completion: a source gives each new object the next number, and a
thread has one number for as long as it runs.
-/

namespace Metering

/-- Gives out numbers from one on; they wrap after `2 ^ 64`. -/
structure IdSource where
  next : UInt64 := 1
deriving DecidableEq

/-- The next number. -/
def IdSource.take (s : IdSource) : UInt64 × IdSource := (s.next, ⟨s.next + 1⟩)

/-- The numbers of the threads that have asked for theirs. -/
structure ThreadTokens where
  source : IdSource := {}
  given : Table Nat UInt64 := .empty

/-- The number of a thread, which it is given when it first asks. -/
def ThreadTokens.tokenOf (t : ThreadTokens) (thread : Nat) : UInt64 × ThreadTokens :=
  match t.given.get? thread with
  | some token => (token, t)
  | none =>
      let (token, source) := t.source.take
      (token, ⟨source, t.given.insert thread token⟩)

/-- A thread that asks again is given the same number. -/
theorem ThreadTokens.tokenOf_tokenOf (t : ThreadTokens) (thread : Nat) :
    ((t.tokenOf thread).2.tokenOf thread).1 = (t.tokenOf thread).1 := by
  cases h : t.given.get? thread <;> simp [tokenOf, h, IdSource.take]

end Metering
