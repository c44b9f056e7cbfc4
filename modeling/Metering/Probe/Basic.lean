import Metering.Binding.Basic
import Metering.Site

/-!
# Probe — Basic

What instrumented code calls into.  A probe holds the bindings of a set by target and phase; firing a point runs all
of its bindings in order, each on the state that the one before it left, and a binding that fails does not stop the
others.  Main statement: `bindingsAt_new`, that a probe finds at a point what the set has there.
-/

namespace Metering

/-- What tells an event from others of its kind: the object that an operation runs on, and the call. -/
structure Invocation where
  object : UInt64
  call : UInt64
deriving DecidableEq

/-- A moment of the calls of a target. -/
structure Point where
  target : Target
  phase : Phase
deriving DecidableEq

def Binding.point (b : Binding) : Point := ⟨b.target, b.phase⟩

/-- The bindings of a set at a point, in the order of the set. -/
def BindingSet.bindingsAt (set : BindingSet) (point : Point) : List Binding :=
  set.bindings.filter fun b => b.point = point

/-- Bindings by point, and the number of the registry that they report to. -/
structure Probe where
  registry : Nat
  points : Table Point (List Binding)

namespace Probe

/-- Puts a binding last at its point. -/
def addBinding (points : Table Point (List Binding)) (b : Binding) : Table Point (List Binding) :=
  points.insert b.point ((points.get? b.point).getD [] ++ [b])

/-- The probe of a binding set. -/
def new (set : BindingSet) (registry : Nat) : Probe :=
  ⟨registry, set.bindings.foldl addBinding .empty⟩

/-- The bindings at a point, in the order of the set. -/
def bindingsAt (p : Probe) (point : Point) : List Binding := (p.points.get? point).getD []

theorem getD_get?_foldl_addBinding (bindings : List Binding) (points : Table Point (List Binding))
    (point : Point) :
    ((bindings.foldl addBinding points).get? point).getD [] =
      (points.get? point).getD [] ++ bindings.filter fun b => b.point = point := by
  induction bindings generalizing points with
  | nil => simp
  | cons b rest ih =>
      rw [List.foldl_cons, ih, addBinding, Table.get?_insert]
      by_cases h : b.point = point <;> simp [h]

/-- A probe finds at a point what its set has there. -/
theorem bindingsAt_new (set : BindingSet) (registry : Nat) (point : Point) :
    (Probe.new set registry).bindingsAt point = set.bindingsAt point := by
  simp [new, bindingsAt, BindingSet.bindingsAt, getD_get?_foldl_addBinding]

/-- What an action asks of the registry, if it is about the registry. -/
def operation (target : Target) (inv : Invocation) : Action → Option Registry.Operation
  | .register .. => none
  | .incrementInstanceCount => some (.incrementInstances target.entityKey)
  | .decrementLiveInstanceCount => some (.decrementLive target.entityKey)
  | .recordCreationTime => some (.recordCreation target.entityKey inv.object)
  | .recordInstanceLifetime => some (.recordLifetime target.entityKey inv.object)
  | .incrementCallCount => some (.incrementCalls target.operationKey)
  | .recordCallStart => some (.recordCallStart target.operationKey inv.call)
  | .recordCallEnd => some (.recordCallEnd target.operationKey inv.call)
  | .incrementExceptionExit => some (.incrementExceptionExits target.operationKey inv.call)

/-- Runs one binding on a site, at a reading of the clock. -/
def runBinding (registry : Nat) (b : Binding) (inv : Invocation) (now : UInt64) (site : Site) :
    Except Fault Unit × Site :=
  match b.action with
  | .register _ objectName options =>
      let (result, site) := site.register objectName registry options
      (result.map fun _ => (), site)
  | action =>
      match operation b.target inv action with
      | none => (.ok (), site)
      | some op =>
          let (outcome, site) := site.apply registry now op
          (match outcome.fault? with | some fault => .error fault | none => .ok (), site)

/-- Runs bindings one after another.  Each reads the clock for itself: `clock n` is what the binding reads that runs
after `n` others. -/
def runBindings (registry : Nat) (inv : Invocation) (clock : Nat → UInt64) :
    List Binding → Site → Site
  | [], site => site
  | b :: rest, site =>
      runBindings registry inv (fun n => clock (n + 1)) rest
        (runBinding registry b inv (clock 0) site).2

/-- Runs all bindings at a point, and tells how many there were. -/
def fire (p : Probe) (point : Point) (inv : Invocation) (clock : Nat → UInt64) (site : Site) :
    Nat × Site :=
  let bindings := p.bindingsAt point
  (bindings.length, runBindings p.registry inv clock bindings site)

end Probe

end Metering
