import Metering.Table

/-!
# Registry — Pending

Starts that wait for their completion, each under what ties it to that completion.  A start replaces an earlier one
that is still waiting; a completion takes it away, so that no start is used twice.
-/

namespace Metering

/-- The readings of the clock at the starts that are waiting. -/
abbrev Pending (κ : Type) := Table κ UInt64

namespace Pending

variable {κ : Type} [DecidableEq κ]

/-- Notes a start, and tells which waiting one it replaced. -/
def start (p : Pending κ) (key : κ) (reading : UInt64) : Option UInt64 × Pending κ :=
  (p.get? key, p.insert key reading)

/-- Takes the waiting start away, if there is one. -/
def take (p : Pending κ) (key : κ) : Option UInt64 × Pending κ :=
  (p.get? key, p.erase key)

theorem get?_take (p : Pending κ) (key key' : κ) :
    (p.take key).2.get? key' = if key = key' then none else p.get? key' :=
  p.get?_erase key key'

/-- Where no start waits, nothing is taken away. -/
theorem take_of_missing {p : Pending κ} {key : κ} (h : p.get? key = none) :
    p.take key = (none, p) := by
  rw [take, h, Table.erase_of_get?_eq_none h]

end Pending

end Metering
