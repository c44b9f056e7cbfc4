import Metering.Features
import Metering.Target

/-!
# Binding — Basic

A binding says what happens when an operation is entered or left: one action at one phase of one target.  A binding
set is what a target list compiles to.
-/

namespace Metering

/-- The moment of a call at which a binding fires. -/
inductive Phase where
  | entry
  | exit
  | exceptionExit
deriving DecidableEq

/-- The moment as reports name it. -/
def Phase.text : Phase → String
  | entry => "ENTRY"
  | exit => "EXIT"
  | exceptionExit => "EXCEPTION EXIT"

/-- What happens when a binding fires. -/
inductive Action where
  /-- Publishes the statistics under a name and fixes which of the optional ones are kept. -/
  | register (call objectName : String) (options : RecordOptions)
  | incrementInstanceCount
  | decrementLiveInstanceCount
  | recordCreationTime
  | recordInstanceLifetime
  | incrementCallCount
  | recordCallStart
  | recordCallEnd
  | incrementExceptionExit
deriving DecidableEq

namespace Action

/-- An action without its payload. -/
inductive Kind where
  | register
  | incrementInstanceCount
  | decrementLiveInstanceCount
  | recordCreationTime
  | recordInstanceLifetime
  | incrementCallCount
  | recordCallStart
  | recordCallEnd
  | incrementExceptionExit
deriving DecidableEq

/-- All kinds of actions. -/
def Kind.all : List Kind :=
  [register, incrementInstanceCount, decrementLiveInstanceCount, recordCreationTime,
   recordInstanceLifetime, incrementCallCount, recordCallStart, recordCallEnd,
   incrementExceptionExit]

def kind : Action → Kind
  | register .. => .register
  | incrementInstanceCount => .incrementInstanceCount
  | decrementLiveInstanceCount => .decrementLiveInstanceCount
  | recordCreationTime => .recordCreationTime
  | recordInstanceLifetime => .recordInstanceLifetime
  | incrementCallCount => .incrementCallCount
  | recordCallStart => .recordCallStart
  | recordCallEnd => .recordCallEnd
  | incrementExceptionExit => .incrementExceptionExit

/-- The name by which instrumented code calls the action. -/
def name : Action → String
  | register call .. => call
  | incrementInstanceCount => "incrementInstanceCount"
  | decrementLiveInstanceCount => "decrementLiveInstanceCount"
  | recordCreationTime => "recordInstanceCreationTime"
  | recordInstanceLifetime => "recordInstanceLifetime"
  | incrementCallCount => "incrementMethodCallCount"
  | recordCallStart => "recordMethodCallTime"
  | recordCallEnd => "recordMethodExecTime"
  | incrementExceptionExit => "incrementMethodExitExceptCount"

/-- The call that instrumented code makes, with its arguments if it has any. -/
def text : Action → String
  | register call objectName options =>
      call ++ "(" ++ ", ".intercalate (Text.quote objectName :: options.toList.map toString) ++ ")"
  | action => action.name

end Action

/-- One action at one phase of one target, under a name for people and with its position in the set. -/
structure Binding where
  name : String
  target : Target
  phase : Phase
  action : Action
  order : UInt64
deriving DecidableEq

/-- Position, moment, target and action on one line. -/
def Binding.text (b : Binding) : String :=
  toString b.order ++ " " ++ b.phase.text ++ " " ++ b.target.text ++ " " ++ b.action.text

/-- Bindings, with the name of the helper that their actions call into. -/
structure BindingSet where
  helper : String
  bindings : List Binding
deriving DecidableEq

namespace BindingSet

def size (s : BindingSet) : Nat := s.bindings.length

def isEmpty (s : BindingSet) : Bool := s.bindings.isEmpty

/-- How many bindings have an action of that kind. -/
def countOf (s : BindingSet) (kind : Action.Kind) : Nat :=
  s.bindings.countP fun b => b.action.kind = kind

end BindingSet

end Metering
