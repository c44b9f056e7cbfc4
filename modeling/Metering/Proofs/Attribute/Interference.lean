import Metering.Proofs.Attribute.Saving
import Metering.Text.Lines

/-!
# Proofs — Attribute — Interference

When two calls that save snapshots at the same time disturb each other, and when they do not.  A call needs a place for
the file beside its target and one for the target, neither of them a directory (`Room`): with them it succeeds, and a
call that succeeds alone has them (`exists_room`).  No call changes directories, so the room of the other one stays.

When the target of one call is the file beside the target of the other, nothing may be left of its snapshot
(`lost_of_beside`), or the other target gets it (`run_crossed`).  One call after the other already shows the first of
these, so that `kept_by_every_schedule` needs no more than the two orders of whole calls for its converse.
-/

namespace Metering

/-- A step of the first of two tasks. -/
theorem Race.run_first {σ τ : Type} (advance : Bool → τ → σ → τ × σ) (x y : τ) (s : σ)
    (spurious : Bool) (rest : List Turn) :
    (Race.mk s [x, y]).run advance (⟨0, spurious⟩ :: rest) =
      (Race.mk (advance spurious x s).2 [(advance spurious x s).1, y]).run advance rest :=
  rfl

/-- A step of the second one. -/
theorem Race.run_second {σ τ : Type} (advance : Bool → τ → σ → τ × σ) (x y : τ) (s : σ)
    (spurious : Bool) (rest : List Turn) :
    (Race.mk s [x, y]).run advance (⟨1, spurious⟩ :: rest) =
      (Race.mk (advance spurious y s).2 [x, (advance spurious y s).1]).run advance rest :=
  rfl

namespace Snapshot
open Metering.Tree Saving

variable {t₀ t t' : Tree} {s s' : Snapshot} {path path' : String}

/-! ### What a call needs -/

/-- The places that a call goes to, neither of them a directory. -/
structure Room (t : Tree) (path : String) (beside target : List String) : Prop where
  names : t.Names (temporaryPath path) beside
  names' : t.Names path target
  free : t.entry? beside ≠ some .directory
  free' : t.entry? target ≠ some .directory

section
variable {beside target : List String}

theorem Room.congr (same : SameDirectories t t') (h : Room t path beside target) :
    Room t' path beside target :=
  ⟨h.names.congr same, h.names'.congr same, h.free ∘ (same.directory _).mp,
    h.free' ∘ (same.directory _).mp⟩

theorem Room.advance_write (h : Room t path beside target) (spurious : Bool) (s : Snapshot) :
    advance spurious (.write s path) t = (.publish path, t.put beside (.file s.contents)) := by
  rw [advance, writeTemporary_eq_ok_iff.mpr ⟨_, h.names, h.free, rfl⟩]

theorem Room.advance_publish (h : Room t path beside target) (spurious : Bool) {contents : ByteArray}
    (there : t.entry? beside = some (.file contents)) :
    advance spurious (.publish path) t = (.returned (.ok ()), t.moved beside target contents) := by
  rw [advance, publish_eq_ok_iff.mpr ⟨_, _, _, h.names, h.names', there, h.free', rfl⟩]

/-- What is written leaves room. -/
theorem Room.sameDirectories_put (h : Room t path beside target) (contents : ByteArray) :
    SameDirectories t (t.put beside (.file contents)) :=
  Tree.sameDirectories_put h.names.ne_nil h.free contents

theorem Room.sameDirectories_moved (h : Room t path beside target) {contents : ByteArray}
    (there : t.entry? beside = some (.file contents)) :
    SameDirectories t (t.moved beside target contents) :=
  Tree.sameDirectories_moved h.names.ne_nil h.names'.ne_nil there h.free'

/-- A call with room succeeds, and changes these places alone. -/
theorem Room.save (h : Room t path beside target) (s : Snapshot) :
    (s.save path t).1 = .ok () ∧ SameDirectories t (s.save path t).2 ∧
      ∀ place, Tree.entry? (s.save path t).2 place =
        if target = place then some (.file s.contents)
        else if beside = place then none else t.entry? place := by
  have same := h.sameDirectories_put s.contents
  have there : Tree.entry? (t.put beside (.file s.contents)) beside = some (.file s.contents) := by
    rw [entry?_put h.names.ne_nil, if_pos rfl]
  have steps := advance_advance false false s path t
  rw [h.advance_write, (h.congr same).advance_publish false there, Prod.mk.injEq,
    Saving.returned.injEq] at steps
  obtain ⟨result, tree⟩ := steps
  refine ⟨result.symm, ?_, fun place => ?_⟩
  · rw [← tree]
    exact same.trans ((h.congr same).sameDirectories_moved there)
  · rw [← tree, entry?_moved h.names.ne_nil h.names'.ne_nil there, entry?_put h.names.ne_nil]
    split
    · rfl
    · split <;> rfl

/-- A call that succeeds had room. -/
theorem exists_room (saved : (s.save path t).1 = .ok ()) : ∃ beside target, Room t path beside target := by
  unfold save at saved
  split at saved
  · cases saved
  rename_i t₁ written
  split at saved
  · cases saved
  rename_i t₂ renamed
  obtain ⟨beside, names, free, rfl⟩ := writeTemporary_eq_ok_iff.mp written
  obtain ⟨_, target, _, -, names', -, free', -⟩ := publish_eq_ok_iff.mp renamed
  have same := Tree.sameDirectories_put names.ne_nil free s.contents
  exact ⟨beside, target, names, names'.congr same.symm, free, free' ∘ (same.directory target).mpr⟩

end

/-! ### One after the other -/

/-- Two calls of which one ends before the other begins. -/
theorem run_oneAfterOther (t : Tree) (s s' : Snapshot) (path path' : String) :
    (race t s s' path path').run advance [⟨0, false⟩, ⟨0, false⟩, ⟨1, false⟩, ⟨1, false⟩] =
        ⟨(s'.save path' (s.save path t).2).2,
          [.returned (s.save path t).1, .returned (s'.save path' (s.save path t).2).1]⟩ ∧
      (race t s s' path path').run advance [⟨1, false⟩, ⟨1, false⟩, ⟨0, false⟩, ⟨0, false⟩] =
        ⟨(s.save path (s'.save path' t).2).2,
          [.returned (s.save path (s'.save path' t).2).1, .returned (s'.save path' t).1]⟩ := by
  constructor
  · rw [race, Race.run_first, Race.run_first, Race.run_second, Race.run_second, advance_advance,
      advance_advance]
    rfl
  · rw [race, Race.run_second, Race.run_second, Race.run_first, Race.run_first, advance_advance,
      advance_advance]
    rfl

/-- Two calls do not get in each other's way, as the paths name places in the tree. -/
structure Apart (t : Tree) (s s' : Snapshot) (path path' : String) : Prop where
  targets : t.SameFile path path' → s.contents = s'.contents
  left : ¬ t.SameFile path (temporaryPath path')
  right : ¬ t.SameFile path' (temporaryPath path)

theorem Apart.clear (h : Apart t s s' path path') : Clear t s s' path path' where
  targets _ names names' := h.targets ((names.sameFile_iff names').mpr rfl)
  left _ names names' := h.left ((names.sameFile_iff names').mpr rfl)
  right _ names names' := h.right ((names.sameFile_iff names').mpr rfl)

/-- Where the second of two calls leaves the target of the first one as it is, this target is neither the file beside
the second one's target nor that target itself, unless it gets the same. -/
theorem apart_of_read {beside beside' target target' : List String} (room : Room t path beside target)
    (room' : Room t path' beside' target')
    (kept : (s'.save path' (s.save path t).2).2.read path = .ok s.contents) :
    (t.SameFile path path' → s.contents = s'.contents) ∧ ¬ t.SameFile path (temporaryPath path') := by
  obtain ⟨-, same, entries⟩ := room.save s
  obtain ⟨-, same', entries'⟩ := (room'.congr same).save s'
  obtain ⟨place, names, there⟩ := read_eq_ok_iff_names.mp kept
  cases (room.names'.congr (same.trans same')).unique names
  rw [entries', entries, if_pos rfl] at there
  rw [room.names'.sameFile_iff room'.names', room.names'.sameFile_iff room'.names]
  by_cases shared : target' = target
  · rw [if_pos shared, Option.some.injEq, FileEntry.file.injEq] at there
    exact ⟨fun _ => there.symm, fun e => beside_ne room'.names room'.names' (e.symm.trans shared.symm)⟩
  · rw [if_neg shared] at there
    refine ⟨fun e => absurd e.symm shared, fun e => ?_⟩
    rw [if_pos e.symm] at there
    cases there

/-- **What is lost.**  When the target of a call is the file beside the target of a later one, nothing is left of it. -/
theorem lost_of_beside {beside target target' : List String} (room : Room t path beside target)
    (room' : Room t path' target target') (s s' : Snapshot) (contents : ByteArray) :
    (s'.save path' (s.save path t).2).2.read path ≠ .ok contents := by
  obtain ⟨-, same, -⟩ := room.save s
  obtain ⟨-, same', entries⟩ := (room'.congr same).save s'
  intro read
  obtain ⟨place, names, there⟩ := read_eq_ok_iff_names.mp read
  cases (room.names'.congr (same.trans same')).unique names
  rw [entries, if_neg (beside_ne room'.names room'.names').symm, if_pos rfl] at there
  cases there

/-- **What is mixed up.**  Both calls write before either of them publishes, and each has its own file beside its target:
both succeed.  But when the target of the first one is the file beside the second one's target, the second target gets
the snapshot of the first call. -/
theorem run_crossed {beside beside' target target' : List String} (room : Room t path beside target)
    (room' : Room t path' beside' target') (own : beside ≠ beside') (s s' : Snapshot) :
    let after := (race t s s' path path').run advance
      [⟨0, false⟩, ⟨1, false⟩, ⟨0, false⟩, ⟨1, false⟩]
    after.tasks = [.returned (.ok ()), .returned (.ok ())] ∧
      after.shared.read path' = .ok (if target = beside' then s.contents else s'.contents) := by
  intro after
  let written := (t.put beside (.file s.contents)).put beside' (.file s'.contents)
  let moved := written.moved beside target s.contents
  let last := if target = beside' then s.contents else s'.contents
  have same := room.sameDirectories_put s.contents
  have both : SameDirectories t written := same.trans ((room'.congr same).sameDirectories_put s'.contents)
  have there : written.entry? beside = some (.file s.contents) := by
    rw [entry?_put room'.names.ne_nil, if_neg own.symm, entry?_put room.names.ne_nil, if_pos rfl]
  have same' : SameDirectories t moved := both.trans ((room.congr both).sameDirectories_moved there)
  have there' : moved.entry? beside' = some (.file last) := by
    rw [entry?_moved room.names.ne_nil room.names'.ne_nil there, if_neg own, entry?_put room'.names.ne_nil,
      if_pos rfl]
    exact (apply_ite (fun c => some (FileEntry.file c)) ..).symm
  have run : after = ⟨moved.moved beside' target' last, [.returned (.ok ()), .returned (.ok ())]⟩ := by
    simp only [after]
    rw [race, Race.run_first, room.advance_write, Race.run_second, (room'.congr same).advance_write,
      Race.run_first, (room.congr both).advance_publish false there, Race.run_second,
      (room'.congr same').advance_publish false there']
    rfl
  have final := same'.trans ((room'.congr same').sameDirectories_moved there')
  rw [run]
  refine ⟨rfl, read_eq_ok_iff_names.mpr ⟨target', room'.names'.congr final, ?_⟩⟩
  rw [entry?_moved room'.names.ne_nil room'.names'.ne_nil there', if_pos rfl]

/-! ### Targets that are told apart by their texts -/

/-- What is known of the path of a call. -/
def Saving.Targeted (t₀ : Tree) (path : String) : Saving → Prop
  | .write _ p | .publish p => p = path
  | .returned (.ok ()) => ∃ target, t₀.Names path target
  | .returned (.error _) => True

theorem Saving.Targeted.step {x : Saving} {after : Saving × Tree} (same : SameDirectories t₀ t)
    (h : Targeted t₀ path x) (step : Step t x after) : Targeted t₀ path after.1 := by
  cases step with
  | fails => trivial
  | writes => exact h
  | publishes _ names' =>
      cases (h : _ = path)
      exact ⟨_, names'.congr same.symm⟩
  | rests => exact h

/-- Paths of calls that succeed name places. -/
theorem names_of_returned {schedule : List Turn}
    (returned : ((race t₀ s s' path path').run advance schedule).tasks =
      [.returned (.ok ()), .returned (.ok ())]) :
    (∃ target, t₀.Names path target) ∧ ∃ target', t₀.Names path' target' := by
  obtain ⟨x, y, t, run, -, left, right⟩ := Race.run_two
    (P := fun x y t => SameDirectories t₀ t ∧ Targeted t₀ path x ∧ Targeted t₀ path' y)
    (fun spurious x y t ⟨same, left, right⟩ =>
      have step := step_advance spurious x t
      ⟨same.trans step.sameDirectories, left.step same step, right⟩)
    (fun spurious x y t ⟨same, left, right⟩ =>
      have step := step_advance spurious y t
      ⟨same.trans step.sameDirectories, left, right.step same step⟩)
    (x := .write s path) (y := .write s' path') ⟨.refl t₀, rfl, rfl⟩ schedule
  rw [race, run] at returned
  simp only [List.cons.injEq, and_true] at returned
  obtain ⟨rfl, rfl⟩ := returned
  exact ⟨left, right⟩

/-- A file beside a target ends with the extension for such files. -/
theorem clear_of_texts {target target' : List String} (names : t.Names path target)
    (names' : t.Names path' target') (apart : ¬ t.SameFile path path')
    (plain : ¬ ".json.tmp".toList <:+ path.toList) (plain' : ¬ ".json.tmp".toList <:+ path'.toList) :
    Clear t s s' path path' where
  targets _ there there' := absurd ((there.sameFile_iff there').mpr rfl) apart
  left _ there beside := plain (suffix_of_withExtension names' beside (by decide) there)
  right _ there beside := plain' (suffix_of_withExtension names beside (by decide) there)

/-- **Saving at the same time.**  Where two calls do not get in each other's way, every schedule in which both succeed
leaves each target with the snapshot of its call.  Where each call succeeds alone, this is the only condition, and it is
enough that one call after the other leaves both targets right, in either order: no other schedule does more harm.  The
condition holds for targets at different places of which neither path ends as the files beside targets do. -/
theorem kept_by_every_schedule (t : Tree) (s s' : Snapshot) (path path' : String) :
    (Apart t s s' path path' → ∀ schedule, Kept t s s' path path' schedule) ∧
    ((s.save path t).1 = .ok () → (s'.save path' t).1 = .ok () →
      Kept t s s' path path' [⟨0, false⟩, ⟨0, false⟩, ⟨1, false⟩, ⟨1, false⟩] →
      Kept t s s' path path' [⟨1, false⟩, ⟨1, false⟩, ⟨0, false⟩, ⟨0, false⟩] →
      Apart t s s' path path') ∧
    (¬ t.SameFile path path' → ¬ ".json.tmp".toList <:+ path.toList →
      ¬ ".json.tmp".toList <:+ path'.toList → ∀ schedule, Kept t s s' path path' schedule) := by
  refine ⟨fun apart => kept_of_clear apart.clear, fun saved saved' kept kept' => ?_,
    fun apart plain plain' schedule returned => ?_⟩
  · obtain ⟨beside, target, room⟩ := exists_room saved
    obtain ⟨beside', target', room'⟩ := exists_room saved'
    obtain ⟨run, run'⟩ := run_oneAfterOther t s s' path path'
    have later := ((room'.congr (room.save s).2.1).save s').1
    have later' := ((room.congr (room'.save s').2.1).save s).1
    rw [Kept, run, saved, later] at kept
    rw [Kept, run', saved', later'] at kept'
    obtain ⟨targets, left⟩ := apart_of_read room room' (kept rfl).1
    exact ⟨targets, left, (apart_of_read room' room (kept' rfl).2).2⟩
  · obtain ⟨⟨_, names⟩, ⟨_, names'⟩⟩ := names_of_returned returned
    exact kept_of_clear (clear_of_texts names names' apart plain plain') schedule returned

/-! ### Names in a directory -/

/-- A file name that can be used. -/
def Usable (name : String) : Prop :=
  Path.components name = [name] ∧ Path.Plain name ∧ '\x00' ∉ name.toList ∧ name.utf8ByteSize ≤ nameLimit

instance (name : String) : Decidable (Usable name) := inferInstanceAs (Decidable (_ ∧ _ ∧ _ ∧ _))

theorem names_of_usable {name : String} (h : Usable name) : ({} : Tree).Names name [name] :=
  ⟨[], name, leads_of_name {} h.1 h.2.1 h.2.2.1 h.2.2.2, rfl⟩

/-- There is room for every call in a directory that is empty. -/
theorem room_of_usable (path : String) (h : Usable path) (h' : Usable (temporaryPath path)) :
    Room {} path [temporaryPath path] [path] := by
  have vacant (name : String) : Tree.entry? {} [name] ≠ some .directory := nofun
  exact ⟨names_of_usable h', names_of_usable h, vacant _, vacant _⟩

/-- Two names of one directory that are alike up to an extension. -/
theorem kept_of_two_names :
    let s : Snapshot := ⟨"first", []⟩
    let s' : Snapshot := ⟨"second", []⟩
    let after := (race {} s s' "a.json" "a.json.old").run advance
      [⟨0, false⟩, ⟨1, false⟩, ⟨0, false⟩, ⟨1, false⟩]
    Apart {} s s' "a.json" "a.json.old" ∧
      after.tasks = [.returned (.ok ()), .returned (.ok ())] ∧
      after.shared.read "a.json" = .ok s.contents ∧ after.shared.read "a.json.old" = .ok s'.contents := by
  intro s s' after
  have room := room_of_usable "a.json" (by decide +kernel) (by decide +kernel)
  have room' := room_of_usable "a.json.old" (by decide +kernel) (by decide +kernel)
  obtain ⟨sufficient, necessary, texts⟩ := kept_by_every_schedule {} s s' "a.json" "a.json.old"
  have differ : ¬ ({} : Tree).SameFile "a.json" "a.json.old" := by
    rw [room.names'.sameFile_iff room'.names']
    decide
  have kept := texts differ (by decide) (by decide)
  have apart := necessary (room.save s).1 (room'.save s').1 (kept _) (kept _)
  have returned := (run_crossed room room' (by decide +kernel) s s').1
  exact ⟨apart, returned, sufficient apart _ returned⟩

/-- A call for `a.json.tmp`, and one for `a.txt`, which writes `a.json.tmp` first.  One after the other, both succeed
and nothing is left of the first one.  If both write before either of them publishes, `a.txt` gets the first one's
snapshot. -/
theorem mixed_up_by_extension :
    let s : Snapshot := ⟨"first", []⟩
    let s' : Snapshot := ⟨"second", []⟩
    let after (schedule : List Nat) := (race {} s s' "a.json.tmp" "a.txt").run advance
      (schedule.map fun i => ⟨i, false⟩)
    s.contents ≠ s'.contents ∧
      (after [0, 0, 1, 1]).tasks = [.returned (.ok ()), .returned (.ok ())] ∧
      (∀ contents, (after [0, 0, 1, 1]).shared.read "a.json.tmp" ≠ .ok contents) ∧
      (after [0, 1, 0, 1]).tasks = [.returned (.ok ()), .returned (.ok ())] ∧
      (after [0, 1, 0, 1]).shared.read "a.txt" = .ok s.contents := by
  intro s s' after
  have room := room_of_usable "a.json.tmp" (by decide +kernel) (by decide +kernel)
  have room' := room_of_usable "a.txt" (by decide +kernel) (by decide +kernel)
  have shared : temporaryPath "a.txt" = "a.json.tmp" := by decide +kernel
  have crossed := run_crossed room room' (by decide +kernel) s s'
  rw [shared] at room' crossed
  have run := (run_oneAfterOther {} s s' "a.json.tmp" "a.txt").1
  have later := ((room'.congr (room.save s).2.1).save s').1
  have texts : s.toJson.pretty ≠ s'.toJson.pretty := by decide +kernel
  refine ⟨fun same => texts ?_, ?_, fun contents => ?_, crossed.1, ?_⟩
  · have decoded := congrArg Text.ofUtf8? same
    rwa [contents, contents, Text.ofUtf8?_toUTF8, Text.ofUtf8?_toUTF8, Option.some.injEq] at decoded
  · change (Race.run advance _ [_, _, _, _]).tasks = _
    rw [run, (room.save s).1, later]
  · change (Race.run advance _ [_, _, _, _]).shared.read _ ≠ _
    rw [run]
    exact lost_of_beside room room' s s' contents
  · exact crossed.2

end Snapshot

end Metering
