import Metering.Probe.Basic

/-!
# Probe — History

Runs of a probe: lists of firings, each with the readings of the clock that its bindings take.  `run` is the site after
a history, and `results` tells which bindings it runs and how each of them ends.
-/

namespace Metering

/-- A point fires.  `clock n` is what the binding reads that runs after `n` others. -/
structure Firing where
  point : Point
  invocation : Invocation
  clock : Nat → UInt64

namespace Probe

/-- The site after a history. -/
def run (p : Probe) (site : Site) : List Firing → Site
  | [] => site
  | f :: rest => p.run (p.fire f.point f.invocation f.clock site).2 rest

/-- The results of bindings that run one after another. -/
def resultsOf (registry : Nat) (inv : Invocation) (clock : Nat → UInt64) :
    List Binding → Site → List (Binding × Except Fault Unit)
  | [], _ => []
  | b :: rest, site =>
      let (result, site) := runBinding registry b inv (clock 0) site
      (b, result) :: resultsOf registry inv (fun n => clock (n + 1)) rest site

/-- The results of the bindings that a history runs. -/
def results (p : Probe) (site : Site) : List Firing → List (Binding × Except Fault Unit)
  | [] => []
  | f :: rest =>
      resultsOf p.registry f.invocation f.clock (p.bindingsAt f.point) site ++
        p.results (p.fire f.point f.invocation f.clock site).2 rest

theorem run_append (p : Probe) (site : Site) (before after : List Firing) :
    p.run site (before ++ after) = p.run (p.run site before) after := by
  induction before generalizing site with
  | nil => rfl
  | cons f rest ih => exact ih _

end Probe

end Metering
