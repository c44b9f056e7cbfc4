/-!
# Features

Which statistics are wanted (`Features`), and which of the optional ones a registry keeps (`RecordOptions`).  Some
features need others: extrema need the average's bookkeeping, and timed calls must be closed on exceptional exits.
`normalized` adds what is needed; it only adds, and a second time adds nothing (`normalized_normalized`).
-/

namespace Metering

/-- The statistics that are wanted. -/
structure Features where
  instanceCounts : Bool := false
  lifetimeMin : Bool := false
  lifetimeAvg : Bool := false
  lifetimeMax : Bool := false
  callCounts : Bool := false
  execTimeMin : Bool := false
  execTimeAvg : Bool := false
  execTimeMax : Bool := false
  exceptionExits : Bool := false
deriving DecidableEq

/-- The optional statistics that a registry keeps. -/
structure RecordOptions where
  lifetimeMin : Bool := false
  lifetimeMax : Bool := false
  execTimeMin : Bool := false
  execTimeMax : Bool := false
  exceptionExits : Bool := false
deriving DecidableEq

namespace Features

/-- Every statistic. -/
def all : Features := ⟨true, true, true, true, true, true, true, true, true⟩

/-- The features with those that they need. -/
def normalized (f : Features) : Features :=
  let lifetimeAvg := f.lifetimeAvg || f.lifetimeMin || f.lifetimeMax
  let execTimeAvg := f.execTimeAvg || f.execTimeMin || f.execTimeMax
  { f with lifetimeAvg, execTimeAvg, exceptionExits := f.exceptionExits || execTimeAvg }

/-- What a registry has to keep for the features and what they need. -/
def recordOptions (f : Features) : RecordOptions :=
  let f := f.normalized
  { lifetimeMin := f.lifetimeMin
    lifetimeMax := f.lifetimeMax
    execTimeMin := f.execTimeMin
    execTimeMax := f.execTimeMax
    exceptionExits := f.exceptionExits }

theorem normalized_normalized (f : Features) : f.normalized.normalized = f.normalized := by
  simp [normalized]
  grind

/-! ### By name -/

/-- The names of the features in documents, in order. -/
def names : List String :=
  ["instance_counts", "instance_lifetime_min", "instance_lifetime_avg", "instance_lifetime_max",
   "call_counts", "exec_time_min", "exec_time_avg", "exec_time_max", "exception_exits"]

/-- The features whose names are enabled. -/
def ofNames (enabled : String → Bool) : Features where
  instanceCounts := enabled "instance_counts"
  lifetimeMin := enabled "instance_lifetime_min"
  lifetimeAvg := enabled "instance_lifetime_avg"
  lifetimeMax := enabled "instance_lifetime_max"
  callCounts := enabled "call_counts"
  execTimeMin := enabled "exec_time_min"
  execTimeAvg := enabled "exec_time_avg"
  execTimeMax := enabled "exec_time_max"
  exceptionExits := enabled "exception_exits"

/-- Each name with whether it is enabled. -/
def toMembers (f : Features) : List (String × Bool) :=
  names.zip [f.instanceCounts, f.lifetimeMin, f.lifetimeAvg, f.lifetimeMax, f.callCounts,
    f.execTimeMin, f.execTimeAvg, f.execTimeMax, f.exceptionExits]

end Features

namespace RecordOptions

/-- The names of the options in documents, in order. -/
def names : List String :=
  ["lifetime_min", "lifetime_max", "exec_time_min", "exec_time_max", "exception_exits"]

/-- The options in the order of their names. -/
def toList (o : RecordOptions) : List Bool :=
  [o.lifetimeMin, o.lifetimeMax, o.execTimeMin, o.execTimeMax, o.exceptionExits]

end RecordOptions

end Metering
