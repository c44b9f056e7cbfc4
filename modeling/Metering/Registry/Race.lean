import Metering.Registry.Counters
import Metering.Registry.Timing

/-!
# Registry — Race

What happens when several threads report at once.  An addition to a counter and an observation of a time are each a
series of steps that nothing can come between: looking for the key's record, making it, and reading or changing one of
its words.  A `Race` is what the threads share and how far each has come, and a schedule says whose step is next.
-/

namespace Metering

/-- Tasks of several threads on what they share; `τ` is what a task has still to do. -/
structure Race (σ τ : Type) where
  shared : σ
  tasks : List τ
deriving DecidableEq

/-- Whose turn it is, and whether a conditional exchange fails although it need not. -/
structure Turn where
  task : Nat
  spurious : Bool
deriving DecidableEq

namespace Race

variable {σ τ : Type}

/-- One step of the task whose turn it is; a turn of no task does nothing. -/
def step (advance : Bool → τ → σ → τ × σ) (r : Race σ τ) (turn : Turn) : Race σ τ :=
  match r.tasks[turn.task]? with
  | none => r
  | some task =>
      let (task, shared) := advance turn.spurious task r.shared
      ⟨shared, r.tasks.set turn.task task⟩

/-- The race after a schedule. -/
def run (advance : Bool → τ → σ → τ × σ) (r : Race σ τ) (schedule : List Turn) : Race σ τ :=
  schedule.foldl (step advance) r

theorem run_append (advance : Bool → τ → σ → τ × σ) (r : Race σ τ) (before after : List Turn) :
    r.run advance (before ++ after) = (r.run advance before).run advance after :=
  List.foldl_append

end Race

/-! ### Additions to counters -/

namespace Counters

/-- What is left of an addition. -/
inductive Addition where
  /-- To look whether the key has a counter. -/
  | lookUp (key : Key) (amount : UInt64)
  /-- To make the key's counter, unless it has one by now. -/
  | create (key : Key) (amount : UInt64)
  /-- To add to the counter. -/
  | add (key : Key) (amount : UInt64)
  | done
deriving DecidableEq

/-- The next step of an addition, in which no exchange is conditional. -/
def Addition.advance (_spurious : Bool) (a : Addition) (c : Counters) : Addition × Counters :=
  match a with
  | .lookUp key amount => (if c.contains key then .add key amount else .create key amount, c)
  | .create key amount => (.add key amount, if c.contains key then c else c.insert key 0)
  | .add key amount => (.done, c.add key amount)
  | .done => (.done, c)

end Counters

/-! ### Observations of times -/

namespace Timings

/-- A time to take in for a key. -/
structure Sample where
  key : Key
  elapsed : UInt64
  trackMin : Bool
  trackMax : Bool
deriving DecidableEq

/-- What is left of an observation.  An exchange puts the sample in place of the extremum that was seen last. -/
inductive Observation where
  /-- To look whether the key has a record. -/
  | lookUp (s : Sample)
  /-- To make the key's record, unless it has one by now. -/
  | create (s : Sample)
  | addTime (s : Sample)
  | count (s : Sample)
  | readMin (s : Sample)
  | exchangeMin (s : Sample) (seen : Option UInt64)
  | readMax (s : Sample)
  | exchangeMax (s : Sample) (seen : Option UInt64)
  | done
deriving DecidableEq

/-- Whether a sample is to replace an extremum. -/
def replaces (beats : UInt64 → UInt64 → Bool) (held : Option UInt64) (sample : UInt64) : Bool :=
  match held with
  | none => true
  | some held => beats sample held

namespace Observation

/-- What comes after the minimum. -/
def afterMin (s : Sample) : Observation := if s.trackMax then .readMax s else .done

/-- What comes after the number. -/
def afterCount (s : Sample) : Observation := if s.trackMin then .readMin s else afterMin s

/-- What comes after a minimum was seen. -/
def onMin (s : Sample) (seen : Option UInt64) : Observation :=
  if replaces (· < ·) seen (Timing.sample s.elapsed) then .exchangeMin s seen else afterMin s

/-- What comes after a maximum was seen. -/
def onMax (s : Sample) (seen : Option UInt64) : Observation :=
  if replaces (· > ·) seen (Timing.sample s.elapsed) then .exchangeMax s seen else .done

/-- The record of a key. -/
def record (t : Timings) (key : Key) : Timing := (t.get? key).getD {}

/-- The next step of an observation.  An exchange fails if the extremum is no longer the one that was seen; it may
fail although it is.  Either way the extremum is seen again. -/
def advance (spurious : Bool) (o : Observation) (t : Timings) : Observation × Timings :=
  match o with
  | .lookUp s => (if t.contains s.key then .addTime s else .create s, t)
  | .create s => (.addTime s, if t.contains s.key then t else t.insert s.key {})
  | .addTime s =>
      let r := record t s.key
      (.count s, t.insert s.key { r with sum := r.sum + s.elapsed })
  | .count s =>
      let r := record t s.key
      (afterCount s, t.insert s.key { r with completed := r.completed + 1 })
  | .readMin s => (onMin s (record t s.key).min, t)
  | .exchangeMin s seen =>
      let r := record t s.key
      if r.min = seen ∧ !spurious then
        (afterMin s, t.insert s.key { r with min := some (Timing.sample s.elapsed) })
      else (onMin s r.min, t)
  | .readMax s => (onMax s (record t s.key).max, t)
  | .exchangeMax s seen =>
      let r := record t s.key
      if r.max = seen ∧ !spurious then
        (.done, t.insert s.key { r with max := some (Timing.sample s.elapsed) })
      else (onMax s r.max, t)
  | .done => (.done, t)

end Observation

end Timings

end Metering
