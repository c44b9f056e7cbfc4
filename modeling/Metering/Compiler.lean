import Metering.Binding.Basic
import Metering.Text.Blank
import Metering.Text.Lines

/-!
# Compiler

From a target list and the features wanted to bindings.  The registration binding comes first; then each line that is
neither blank nor a repetition adds the bindings of its entity, if no line before it had that entity, and those of its
operation.  Positions are given out in order, so later lines never change what earlier ones gave.

A target list comes as lines, as a text or as bytes that are all there; a source of bytes that fails while it is read is
left out, and so are logs.
-/

namespace Metering

/-- Where and under which name the statistics are published. -/
structure Registration where
  helper : String
  entity : String
  operation : String
  action : String
  objectName : String
deriving DecidableEq

/-- The operations between which an instance lives. -/
structure Lifecycle where
  constructor : String := "<init>"
  completion : String := "run"
deriving DecidableEq

/-- What a target list is compiled for. -/
structure Compiler where
  features : Features
  registration : Registration
  lifecycle : Lifecycle
deriving DecidableEq

namespace Compiler

/-- A compiler for the features and those that they need. -/
def new (features : Features) (registration : Registration) (lifecycle : Lifecycle := {}) :
    Compiler :=
  ⟨features.normalized, registration, lifecycle⟩

/-! ### What is emitted -/

/-- A binding that has no position yet. -/
structure Draft where
  name : String
  target : Target
  phase : Phase
  action : Action
deriving DecidableEq

/-- Gives a draft its position. -/
def Draft.at (d : Draft) (order : UInt64) : Binding :=
  ⟨d.name, d.target, d.phase, d.action, order⟩

/-- The binding that publishes the statistics. -/
def registrationDraft (c : Compiler) : Draft where
  name := "Register statistics: " ++ c.registration.objectName
  target := ⟨c.registration.entity, c.registration.operation⟩
  phase := .entry
  action := .register c.registration.action c.registration.objectName c.features.recordOptions

/-- The bindings of an entity: they count its instances and time their lives.  Where lives are timed, the end of one
also ends the instance; where they are not, it is counted on its own. -/
def entityDrafts (c : Compiler) (entity : String) : List Draft :=
  let born : Target := ⟨entity, c.lifecycle.constructor⟩
  let done : Target := ⟨entity, c.lifecycle.completion⟩
  let f := c.features
  let counted : List Draft :=
    if f.instanceCounts then
      [⟨"Increment instance count: " ++ entity, born, .exit, .incrementInstanceCount⟩]
    else []
  let ended : List Draft :=
    if f.lifetimeAvg then
      [⟨"Record instance creation time: " ++ entity, born, .entry, .recordCreationTime⟩,
       ⟨"Record instance lifetime, no exceptions: " ++ entity, done, .exit,
        .recordInstanceLifetime⟩,
       ⟨"Record instance lifetime, if exceptions: " ++ entity, done, .exceptionExit,
        .recordInstanceLifetime⟩]
    else if f.instanceCounts then
      [⟨"Decrement live instance count, no exceptions: " ++ entity, done, .exit,
        .decrementLiveInstanceCount⟩,
       ⟨"Decrement live instance count, if exceptions: " ++ entity, done, .exceptionExit,
        .decrementLiveInstanceCount⟩]
    else []
  counted ++ ended

/-- The bindings of an operation: they count its calls, time them, and count its exceptional exits. -/
def operationDrafts (c : Compiler) (target : Target) : List Draft :=
  let label := target.entity ++ " - " ++ target.operation
  let f := c.features
  let counted : List Draft :=
    if f.callCounts then
      [⟨"Increment call count: " ++ label, target, .entry, .incrementCallCount⟩]
    else []
  let timed : List Draft :=
    if f.execTimeAvg then
      [⟨"Record call time of method: " ++ label, target, .entry, .recordCallStart⟩,
       ⟨"Record execution time of method: " ++ label, target, .exit, .recordCallEnd⟩]
    else []
  let excepted : List Draft :=
    if f.exceptionExits then
      [⟨"Exits via exceptions from method: " ++ label, target, .exceptionExit,
        .incrementExceptionExit⟩]
    else []
  counted ++ timed ++ excepted

/-! ### Reading the lines -/

/-- What has been read of a target list: the lines and the entities seen, and the bindings emitted, all in reverse. -/
structure Progress where
  lines : List String := []
  entities : List String := []
  drafts : List Draft := []

/-- Reads the line of that number.  A line that was seen before is passed over before it is looked at. -/
def readLine (c : Compiler) (p : Progress) (number : Nat) (raw : String) : Except Fault Progress :=
  let line := Text.withoutReturns raw
  if Text.isBlank line ∨ line ∈ p.lines then .ok p
  else do
    let target ← Target.parseLine number line
    let known := decide (target.entity ∈ p.entities)
    let drafts := (if known then [] else c.entityDrafts target.entity) ++ c.operationDrafts target
    return {
      lines := line :: p.lines
      entities := if known then p.entities else target.entity :: p.entities
      drafts := drafts.reverse ++ p.drafts }

/-- Reads lines, the first of which has the given number. -/
def readLines (c : Compiler) : Progress → Nat → List String → Except Fault Progress
  | p, _, [] => .ok p
  | p, number, raw :: rest =>
      match c.readLine p number raw with
      | .error fault => .error fault
      | .ok p => readLines c p (number + 1) rest

/-- The drafts in order, each with its position. -/
def place (drafts : List Draft) : List Binding :=
  drafts.mapIdx fun i d => d.at (.ofNat i)

/-- Compiles lines, which are numbered from one. -/
def compile (c : Compiler) (lines : List String) : Except Fault BindingSet := do
  let p ← c.readLines {} 1 lines
  return ⟨c.registration.helper, place (c.registrationDraft :: p.drafts.reverse)⟩

/-- Compiles the lines of a text. -/
def compileText (c : Compiler) (text : String) : Except Fault BindingSet :=
  c.compile (Text.lines text)

/-- Compiles the lines of a byte string.  All lines are decoded before the first one is read. -/
def compileBytes (c : Compiler) (bytes : ByteArray) : Except Fault BindingSet :=
  match (Text.byteLines bytes).mapM Text.ofUtf8? with
  | none => .error (.io "read targets failed: stream did not contain valid UTF-8")
  | some lines => c.compile lines

end Compiler

end Metering
