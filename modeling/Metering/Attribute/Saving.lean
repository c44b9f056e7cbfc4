import Metering.Attribute.Save
import Metering.Registry.Race

/-!
# Attribute — Saving

Calls that save snapshots at the same time.  Each of the two steps of a call is one that nothing can come between, and a
schedule says whose step is next.  A call whose steps come one after another saves as `Snapshot.save` does
(`advance_advance`).
-/

namespace Metering.Snapshot

/-- What is left of saving a snapshot. -/
inductive Saving where
  /-- To write the file beside the target. -/
  | write (s : Snapshot) (path : String)
  /-- To give that file the target's name. -/
  | publish (path : String)
  | returned (result : Except Fault Unit)

namespace Saving

/-- The next step of a call.  No exchange is conditional, and a step that fails is the last one. -/
def advance (_spurious : Bool) (task : Saving) (t : Tree) : Saving × Tree :=
  match task with
  | .write s path =>
      match s.writeTemporary path t with
      | .error fault => (.returned (.error fault), t)
      | .ok t => (.publish path, t)
  | .publish path =>
      match Snapshot.publish path t with
      | .error fault => (.returned (.error fault), t)
      | .ok t => (.returned (.ok ()), t)
  | .returned result => (.returned result, t)

/-- Both steps of a call, one after the other. -/
theorem advance_advance (spurious spurious' : Bool) (s : Snapshot) (path : String) (t : Tree) :
    advance spurious' (advance spurious (.write s path) t).1 (advance spurious (.write s path) t).2 =
      (.returned (s.save path t).1, (s.save path t).2) := by
  unfold save
  simp only [advance]
  cases s.writeTemporary path t with
  | error => rfl
  | ok t =>
      dsimp only
      cases Snapshot.publish path t <;> rfl

end Saving

end Metering.Snapshot
