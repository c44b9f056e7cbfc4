import Metering.Key
import Metering.Table

/-!
# Registry — Counters

Totals by key.  A key has a counter from its first addition on; a key without one counts as zero.  Totals are words of
64 bits and wrap.
-/

namespace Metering

/-- Totals by key. -/
abbrev Counters := Table Key UInt64

namespace Counters

/-- The total of a key, zero if it has none. -/
def total (c : Counters) (key : Key) : UInt64 := (c.get? key).getD 0

/-- Adds to the total of a key. -/
def add (c : Counters) (key : Key) (amount : UInt64) : Counters :=
  c.insert key (c.total key + amount)

/-- Counts one more. -/
def increment (c : Counters) (key : Key) : Counters := c.add key 1

theorem total_add (c : Counters) (key key' : Key) (amount : UInt64) :
    (c.add key amount).total key' = if key = key' then c.total key + amount else c.total key' := by
  simp only [total, add, Table.get?_insert]
  split <;> rfl

theorem contains_add (c : Counters) (key key' : Key) (amount : UInt64) :
    (c.add key amount).contains key' = (decide (key = key') || c.contains key') := by
  simp only [Table.contains, add, Table.get?_insert]
  split <;> simp_all

end Counters

end Metering
