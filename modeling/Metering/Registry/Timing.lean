import Metering.Key
import Metering.Table

/-!
# Registry — Timing

What is kept of the times of a key: their sum and number, and the least and the greatest of those that came while
extrema were tracked.  Sum and number are words and wrap.  An extremum is at most `2 ^ 64 - 2`, the greatest word
being reserved, and `none` until a tracked time came.
-/

namespace Metering

/-- The average of so many times with that sum, zero if there were none. -/
def averageOf (sum completed : UInt64) : UInt64 :=
  if completed = 0 then 0 else sum / completed

/-- A summary of times. -/
structure Timing where
  sum : UInt64 := 0
  completed : UInt64 := 0
  min : Option UInt64 := none
  max : Option UInt64 := none
deriving DecidableEq

namespace Timing

/-- The greatest time that an extremum can be. -/
def cap : UInt64 := 0xfffffffffffffffe

/-- A time as the extrema see it. -/
def sample (elapsed : UInt64) : UInt64 := if elapsed < cap then elapsed else cap

/-- An extremum after a sample, which replaces it if there is none yet or if it beats it. -/
def extremum (beats : UInt64 → UInt64 → Bool) (current : Option UInt64) (sample : UInt64) :
    Option UInt64 :=
  match current with
  | none => some sample
  | some held => if beats sample held then some sample else some held

/-- Takes in one time. -/
def record (t : Timing) (elapsed : UInt64) (trackMin trackMax : Bool) : Timing where
  sum := t.sum + elapsed
  completed := t.completed + 1
  min := if trackMin then extremum (· < ·) t.min (sample elapsed) else t.min
  max := if trackMax then extremum (· > ·) t.max (sample elapsed) else t.max

def average (t : Timing) : UInt64 := averageOf t.sum t.completed

end Timing

/-- Summaries by key. -/
abbrev Timings := Table Key Timing

namespace Timings

/-- Takes in one time for a key. -/
def observe (t : Timings) (key : Key) (elapsed : UInt64) (trackMin trackMax : Bool) : Timings :=
  t.insert key (((t.get? key).getD {}).record elapsed trackMin trackMax)

theorem get?_observe (t : Timings) (key key' : Key) (elapsed : UInt64) (trackMin trackMax : Bool) :
    (t.observe key elapsed trackMin trackMax).get? key' =
      if key = key' then some (((t.get? key).getD {}).record elapsed trackMin trackMax)
      else t.get? key' :=
  Table.get?_insert ..

end Timings

end Metering
