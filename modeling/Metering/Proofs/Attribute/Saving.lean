import Metering.Attribute.Saving
import Metering.Proofs.File.Extension

/-!
# Proofs — Attribute — Saving

Two snapshots are saved at the same time.  A call writes the file beside its target and then renames it, so it can be
disturbed at two places.  The other call may have the same file beside its target: then what is written there first is
lost, and the one that publishes it leaves nothing for the other one, which fails.  Or the other call's target may be
the file beside this one's, or the other way round, which `Clear` excludes.

`Stage` says how far a call is and what has become of its snapshot, besides what is left of the other call.
`Stage.own` and `Stage.beside` keep it along a step of the call itself and of the other one, so both calls have their
stages after every schedule (`Race.run_two`); and the stage of a call that has returned, when the other one has too, is
that its target holds its snapshot (`Stage.read`).
-/

namespace Metering

/-- **Two tasks.**  What no step of either of them breaks holds after every schedule. -/
theorem Race.run_two {σ τ : Type} {advance : Bool → τ → σ → τ × σ} {P : τ → τ → σ → Prop}
    (left : ∀ spurious x y s, P x y s → P (advance spurious x s).1 y (advance spurious x s).2)
    (right : ∀ spurious x y s, P x y s → P x (advance spurious y s).1 (advance spurious y s).2)
    {x y : τ} {s : σ} (start : P x y s) (schedule : List Turn) :
    ∃ x' y' s', (Race.mk s [x, y]).run advance schedule = ⟨s', [x', y']⟩ ∧ P x' y' s' := by
  induction schedule generalizing x y s with
  | nil => exact ⟨x, y, s, rfl, start⟩
  | cons turn rest ih =>
      obtain ⟨task, spurious⟩ := turn
      match task with
      | 0 => exact ih (left spurious x y s start)
      | 1 => exact ih (right spurious x y s start)
      | _ + 2 => exact ih start

namespace Snapshot
open Metering.Tree

variable {t₀ t t' : Tree} {s s' : Snapshot} {path path' : String}

/-! ### The two steps -/

/-- The first step puts the snapshot at the place beside the target. -/
theorem writeTemporary_eq_ok_iff :
    s.writeTemporary path t = .ok t' ↔ ∃ beside, t.Names (temporaryPath path) beside ∧
      t.entry? beside ≠ some .directory ∧ t' = t.put beside (.file s.contents) := by
  rw [writeTemporary, mapError_eq_ok_iff, write_eq_ok_iff_names]

/-- The second step moves what stands there. -/
theorem publish_eq_ok_iff :
    publish path t = .ok t' ↔ ∃ beside target contents, t.Names (temporaryPath path) beside ∧
      t.Names path target ∧ t.entry? beside = some (.file contents) ∧
      t.entry? target ≠ some .directory ∧ t' = t.moved beside target contents := by
  rw [publish, mapError_eq_ok_iff, rename_eq_ok_iff]

/-- The file beside the target is not the target. -/
theorem beside_ne {beside target : List String} (names : t.Names (temporaryPath path) beside)
    (names' : t.Names path target) : beside ≠ target :=
  ne_of_withExtension names' names (by decide) (by decide)

namespace Saving

/-- How a step may go on: it fails and changes nothing, or it does what the next step of the call is. -/
inductive Step (t : Tree) : Saving → Saving × Tree → Prop where
  | fails {x : Saving} {fault : Fault} (unreturned : ∀ result, x ≠ .returned result) :
      Step t x (.returned (.error fault), t)
  | writes {s : Snapshot} {path : String} {beside : List String}
      (names : t.Names (temporaryPath path) beside) (free : t.entry? beside ≠ some .directory) :
      Step t (.write s path) (.publish path, t.put beside (.file s.contents))
  | publishes {path : String} {beside target : List String} {contents : ByteArray}
      (names : t.Names (temporaryPath path) beside) (names' : t.Names path target)
      (there : t.entry? beside = some (.file contents)) (free : t.entry? target ≠ some .directory) :
      Step t (.publish path) (.returned (.ok ()), t.moved beside target contents)
  | rests (result : Except Fault Unit) : Step t (.returned result) (.returned result, t)

theorem step_advance (spurious : Bool) (x : Saving) (t : Tree) : Step t x (advance spurious x t) := by
  cases x with
  | write s path =>
      rw [advance]
      cases written : s.writeTemporary path t with
      | error => exact .fails fun _ e => (by cases e)
      | ok =>
          obtain ⟨beside, names, free, rfl⟩ := writeTemporary_eq_ok_iff.mp written
          exact .writes names free
  | publish path =>
      rw [advance]
      cases published : Snapshot.publish path t with
      | error => exact .fails fun _ e => (by cases e)
      | ok =>
          obtain ⟨beside, target, contents, names, names', there, free, rfl⟩ :=
            publish_eq_ok_iff.mp published
          exact .publishes names names' there free
  | returned result => exact .rests result

/-- No step changes directories. -/
theorem Step.sameDirectories {x : Saving} {after : Saving × Tree} (h : Step t x after) :
    SameDirectories t after.2 := by
  cases h with
  | fails | rests => exact .refl t
  | writes names free => exact sameDirectories_put names.ne_nil free _
  | publishes names names' there free => exact sameDirectories_moved names.ne_nil names'.ne_nil there free

/-! ### Two calls -/

/-- Two calls do not get in each other's way: they save the same under one target, or under targets that are neither the
same nor the file beside the other one.  Places are those of the tree in which both start. -/
structure Clear (t₀ : Tree) (s s' : Snapshot) (path path' : String) : Prop where
  targets : ∀ place, t₀.Names path place → t₀.Names path' place → s.contents = s'.contents
  left : ∀ place, t₀.Names path place → ¬ t₀.Names (temporaryPath path') place
  right : ∀ place, t₀.Names path' place → ¬ t₀.Names (temporaryPath path) place

theorem Clear.symm (h : Clear t₀ s s' path path') : Clear t₀ s' s path' path :=
  ⟨fun place names names' => (h.targets place names' names).symm, h.right, h.left⟩

/-- How far a call is, and what has become of its snapshot, besides another call for `path'` of which `other` is left. -/
inductive Stage (t₀ t : Tree) (s : Snapshot) (path path' : String) (other : Saving) : Saving → Prop where
  | begins : Stage t₀ t s path path' other (.write s path)
  /-- The file beside the target holds the snapshot. -/
  | written {beside : List String} (names : t₀.Names (temporaryPath path) beside)
      (holds : t.entry? beside = some (.file s.contents)) :
      Stage t₀ t s path path' other (.publish path)
  /-- The other call has the same file beside its target and has written it too, but not published it. -/
  | overwritten {beside : List String} (names : t₀.Names (temporaryPath path) beside)
      (names' : t₀.Names (temporaryPath path') beside)
      (unpublished : other = .publish path' ∨ ∃ fault, other = .returned (.error fault)) :
      Stage t₀ t s path path' other (.publish path)
  /-- The other call has published that file in place of this one. -/
  | taken {beside : List String} (names : t₀.Names (temporaryPath path) beside)
      (gone : t.entry? beside = none) (returned : ∃ result, other = .returned result) :
      Stage t₀ t s path path' other (.publish path)
  /-- The target holds the snapshot. -/
  | published {target : List String} (names : t₀.Names path target)
      (holds : t.entry? target = some (.file s.contents)) :
      Stage t₀ t s path path' other (.returned (.ok ()))
  /-- This call has published what the other one was to publish, which can only fail now. -/
  | robs {beside : List String} (names : t₀.Names (temporaryPath path') beside)
      (gone : t.entry? beside = none) (waits : other = .publish path') :
      Stage t₀ t s path path' other (.returned (.ok ()))
  /-- The other call has failed. -/
  | alone (failed : ∃ fault, other = .returned (.error fault)) :
      Stage t₀ t s path path' other (.returned (.ok ()))
  | fails (fault : Fault) : Stage t₀ t s path path' other (.returned (.error fault))

/-- A place that both trees name has one entry, whichever of them names it. -/
theorem stands {place place' : List String} {entry : FileEntry} (same : SameDirectories t₀ t)
    (names : t₀.Names path place) (names' : t.Names path place') (there : t.entry? place' = some entry) :
    t.entry? place = some entry := by
  rw [names.unique (names'.congr same.symm), there]

/-- A step of the call itself. -/
theorem Stage.own {x other : Saving} {after : Saving × Tree} (clear : Clear t₀ s s' path path')
    (same : SameDirectories t₀ t) (h : Stage t₀ t s path path' other x) (step : Step t x after) :
    Stage t₀ after.2 s path path' other after.1 := by
  have back {p : String} {place : List String} (names : t.Names p place) : t₀.Names p place :=
    names.congr same.symm
  cases step with
  | fails => exact .fails _
  | writes names free =>
      cases h with
      | begins => exact .written (back names) (by rw [entry?_put names.ne_nil, if_pos rfl])
  | @publishes _ beside target contents names names' there free =>
      have moved := entry?_moved names.ne_nil names'.ne_nil there
      cases h with
      | written written holds =>
          rw [stands same written names there] at holds
          exact .published (back names') (by rw [moved, if_pos rfl, holds])
      | overwritten written shared unpublished =>
          cases (back names).unique written
          rcases unpublished with waits | failed
          · -- the file beside both targets is gone, and this target is not that file
            have apart : target ≠ beside := fun e => clear.left _ (back names') (e ▸ shared)
            exact .robs shared (by rw [moved, if_neg apart, if_pos rfl]) waits
          · exact .alone failed
      | taken written gone =>
          rw [stands same written names there] at gone
          cases gone
  | rests =>
      cases h with
      | published names holds => exact .published names holds
      | robs names gone waits => exact .robs names gone waits
      | alone failed => exact .alone failed
      | fails => exact .fails _

/-- The other call fails. -/
theorem Stage.beside_failure {x y : Saving} (fault : Fault) (unreturned : ∀ result, x ≠ .returned result)
    (h : Stage t₀ t s' path' path x y) :
    Stage t₀ t s' path' path (.returned (.error fault)) y := by
  cases h with
  | begins => exact .begins
  | written names holds => exact .written names holds
  | overwritten names names' => exact .overwritten names names' (.inr ⟨_, rfl⟩)
  | taken _ _ returned => exact absurd returned.choose_spec (unreturned _)
  | published names holds => exact .published names holds
  | robs => exact .alone ⟨_, rfl⟩
  | alone failed => exact absurd failed.choose_spec (unreturned _)
  | fails => exact .fails _

/-- The other call writes its file. -/
theorem Stage.beside_write {y : Saving} {beside : List String} (clear : Clear t₀ s s' path path')
    (names : t₀.Names (temporaryPath path) beside) (h : Stage t₀ t s' path' path (.write s path) y) :
    Stage t₀ (t.put beside (.file s.contents)) s' path' path (.publish path) y := by
  have put := t.entry?_put names.ne_nil (.file s.contents)
  cases h with
  | begins => exact .begins
  | @written beside' names' holds =>
      by_cases shared : beside = beside'
      · exact .overwritten names' (shared ▸ names) (.inl rfl)
      · exact .written names' (by rw [put, if_neg shared, holds])
  | overwritten _ _ unpublished => rcases unpublished with e | ⟨_, e⟩ <;> cases e
  | taken _ _ returned => obtain ⟨_, e⟩ := returned; cases e
  | @published target' names' holds =>
      have apart : beside ≠ target' := fun e => clear.right _ names' (e ▸ names)
      exact .published names' (by rw [put, if_neg apart, holds])
  | robs _ _ waits => cases waits
  | alone failed => obtain ⟨_, e⟩ := failed; cases e
  | fails => exact .fails _

/-- What a call publishes while the other one has published is its snapshot. -/
theorem Stage.contents_eq {beside : List String} {contents : ByteArray} (same : SameDirectories t₀ t)
    (h : Stage t₀ t s path path' (.returned (.ok ())) (.publish path))
    (names : t.Names (temporaryPath path) beside) (there : t.entry? beside = some (.file contents)) :
    contents = s.contents := by
  cases h with
  | written written holds =>
      rw [stands same written names there, Option.some.injEq, FileEntry.file.injEq] at holds
      exact holds
  | overwritten _ _ unpublished => rcases unpublished with e | ⟨_, e⟩ <;> cases e
  | taken written gone =>
      rw [stands same written names there] at gone
      cases gone

/-- The other call publishes. -/
theorem Stage.beside_publication {y : Saving} {beside target : List String} {contents : ByteArray}
    (clear : Clear t₀ s s' path path') (same : SameDirectories t₀ t)
    (own : Stage t₀ t s path path' y (.publish path)) (h : Stage t₀ t s' path' path (.publish path) y)
    (names : t.Names (temporaryPath path) beside) (names' : t.Names path target)
    (there : t.entry? beside = some (.file contents)) :
    Stage t₀ (t.moved beside target contents) s' path' path (.returned (.ok ())) y := by
  have moved := entry?_moved names.ne_nil names'.ne_nil there
  have back : t₀.Names (temporaryPath path) beside := names.congr same.symm
  have back' : t₀.Names path target := names'.congr same.symm
  cases h with
  | begins => exact .begins
  | @written beside' names'' holds =>
      have apart : target ≠ beside' := fun e => clear.left _ back' (e ▸ names'')
      by_cases shared : beside = beside'
      · exact .taken names'' (by rw [moved, if_neg apart, if_pos shared]) ⟨_, rfl⟩
      · exact .written names'' (by rw [moved, if_neg apart, if_neg shared, holds])
  | @overwritten beside' names'' shared =>
      have apart : target ≠ beside' := fun e => clear.left _ back' (e ▸ names'')
      exact .taken names'' (by rw [moved, if_neg apart, if_pos (back.unique shared)]) ⟨_, rfl⟩
  | taken _ _ returned => obtain ⟨_, e⟩ := returned; cases e
  | @published target' names'' holds =>
      by_cases shared : target = target'
      · have equal := clear.targets _ back' (shared ▸ names'')
        exact .published names'' (by rw [moved, if_pos shared, own.contents_eq same names there, equal])
      · have apart : beside ≠ target' := fun e => clear.right _ names'' (e ▸ back)
        exact .published names'' (by rw [moved, if_neg shared, if_neg apart, holds])
  | robs names'' gone =>
      rw [stands same names'' names there] at gone
      cases gone
  | alone failed => obtain ⟨_, e⟩ := failed; cases e
  | fails => exact .fails _

/-- A step of the other call, for which `x` is left. -/
theorem Stage.beside {x y : Saving} {after : Saving × Tree} (clear : Clear t₀ s s' path path')
    (same : SameDirectories t₀ t) (own : Stage t₀ t s path path' y x)
    (h : Stage t₀ t s' path' path x y) (step : Step t x after) :
    Stage t₀ after.2 s' path' path after.1 y := by
  cases step with
  | fails unreturned => exact h.beside_failure _ unreturned
  | writes names =>
      cases own
      exact h.beside_write clear (names.congr same.symm)
  | @publishes path₁ _ _ _ names names' there =>
      obtain rfl : path₁ = path := by cases own <;> rfl
      exact own.beside_publication clear same h names names' there
  | rests => exact h

/-- Both calls, in the tree that they have come to. -/
structure Underway (t₀ : Tree) (s s' : Snapshot) (path path' : String) (x y : Saving) (t : Tree) : Prop where
  same : SameDirectories t₀ t
  left : Stage t₀ t s path path' y x
  right : Stage t₀ t s' path' path x y

theorem Underway.symm {x y : Saving} (h : Underway t₀ s s' path path' x y t) :
    Underway t₀ s' s path' path y x t :=
  ⟨h.same, h.right, h.left⟩

theorem Underway.advance {x y : Saving} (clear : Clear t₀ s s' path path')
    (h : Underway t₀ s s' path path' x y t) (spurious : Bool) :
    Underway t₀ s s' path path' (advance spurious x t).1 y (advance spurious x t).2 :=
  have step := step_advance spurious x t
  ⟨h.same.trans step.sameDirectories, h.left.own clear h.same step,
    h.left.beside clear h.same h.right step⟩

/-- A call that has returned while the other one has too: its target holds its snapshot. -/
theorem Stage.read {x : Saving} (same : SameDirectories t₀ t)
    (h : Stage t₀ t s path path' (.returned (.ok ())) x) (returned : x = .returned (.ok ())) :
    t.read path = .ok s.contents := by
  subst returned
  cases h with
  | published names holds => exact read_eq_ok_iff_names.mpr ⟨_, names.congr same, holds⟩
  | robs _ _ waits => cases waits
  | alone failed => obtain ⟨_, e⟩ := failed; cases e

end Saving

open Saving

/-! ### Every schedule -/

/-- Two calls that start in a tree. -/
def race (t : Tree) (s s' : Snapshot) (path path' : String) : Race Tree Saving :=
  ⟨t, [.write s path, .write s' path']⟩

/-- What a schedule keeps of two calls: if both succeed, each target holds the snapshot of its call. -/
def Kept (t : Tree) (s s' : Snapshot) (path path' : String) (schedule : List Turn) : Prop :=
  let after := (race t s s' path path').run advance schedule
  after.tasks = [.returned (.ok ()), .returned (.ok ())] →
    after.shared.read path = .ok s.contents ∧ after.shared.read path' = .ok s'.contents

theorem kept_of_clear (clear : Clear t₀ s s' path path') (schedule : List Turn) :
    Kept t₀ s s' path path' schedule := by
  intro returned
  obtain ⟨x, y, t, run, underway⟩ :=
    Race.run_two (P := Underway t₀ s s' path path') (fun spurious x y t h => h.advance clear spurious)
      (fun spurious x y t h => (h.symm.advance clear.symm spurious).symm)
      ⟨.refl t₀, .begins, .begins⟩ schedule
  rw [race, run] at returned ⊢
  simp only [List.cons.injEq, and_true] at returned
  obtain ⟨rfl, rfl⟩ := returned
  exact ⟨underway.left.read underway.same rfl, underway.right.read underway.same rfl⟩

end Snapshot

end Metering
