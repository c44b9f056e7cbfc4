import Metering.Proofs.File.Tree

/-!
# Proofs — File — Rename

What a rename leaves.  The file moves from the place that the first path names to the place of the second, in place of
a file that is there, and nothing stands where it was before (`entry?_moved`).  A rename changes no directories, so
every path names the same place before and after it (`Names.congr`).
-/

namespace Metering.Tree

variable {t t' : Tree} {path : String} {place : List String}

/-! ### The place that a path names -/

/-- A path leads to a name, and that is the place. -/
def Names (t : Tree) (path : String) (place : List String) : Prop :=
  ∃ directory name, t.Leads path directory name ∧ place = directory ++ [name]

theorem Names.ne_nil (h : t.Names path place) : place ≠ [] := by
  obtain ⟨directory, name, -, rfl⟩ := h
  simp

theorem Names.place?_eq (h : t.Names path place) : t.place? path = some place := by
  obtain ⟨directory, name, leads, rfl⟩ := h
  exact leads.place?_eq

/-- A path names one place. -/
theorem Names.unique {place' : List String} (h : t.Names path place) (h' : t.Names path place') :
    place = place' :=
  Option.some.inj (h.place?_eq.symm.trans h'.place?_eq)

theorem Names.sameFile_iff {other : String} {place' : List String} (h : t.Names path place)
    (h' : t.Names other place') : t.SameFile path other ↔ place = place' := by
  rw [SameFile, h.place?_eq, h'.place?_eq, Option.some.injEq]
  exact ⟨And.right, fun same => ⟨rfl, same⟩⟩

theorem read_eq_ok_iff_names {contents : ByteArray} :
    t.read path = .ok contents ↔
      ∃ place, t.Names path place ∧ t.entry? place = some (.file contents) := by
  rw [read_eq_ok_iff]
  constructor
  · rintro ⟨directory, name, leads, there⟩
    exact ⟨_, ⟨directory, name, leads, rfl⟩, there⟩
  · rintro ⟨_, ⟨directory, name, leads, rfl⟩, there⟩
    exact ⟨directory, name, leads, there⟩

theorem write_eq_ok_iff_names {contents : ByteArray} :
    t.write path contents = .ok t' ↔ ∃ place, t.Names path place ∧
      t.entry? place ≠ some .directory ∧ t' = t.put place (.file contents) := by
  rw [write_eq_ok_iff]
  constructor
  · rintro ⟨directory, name, leads, free, rfl⟩
    exact ⟨_, ⟨directory, name, leads, rfl⟩, free, rfl⟩
  · rintro ⟨_, ⟨directory, name, leads, rfl⟩, free, rfl⟩
    exact ⟨directory, name, leads, free, rfl⟩

/-! ### The same directories -/

theorem SameDirectories.refl (t : Tree) : SameDirectories t t := ⟨rfl, fun _ => Iff.rfl⟩

theorem SameDirectories.symm (h : SameDirectories t t') : SameDirectories t' t :=
  ⟨h.here.symm, fun place => (h.directory place).symm⟩

theorem SameDirectories.trans {t'' : Tree} (h : SameDirectories t t') (h' : SameDirectories t' t'') :
    SameDirectories t t'' :=
  ⟨h'.here.trans h.here, fun place => (h'.directory place).trans (h.directory place)⟩

theorem Names.congr (h : SameDirectories t t') (named : t.Names path place) : t'.Names path place := by
  obtain ⟨directory, name, ⟨resolved, short⟩, rfl⟩ := named
  exact ⟨directory, name, ⟨resolve_congr h resolved, short⟩, rfl⟩

/-! ### Renaming -/

theorem entry?_remove (h : place ≠ []) (place' : List String) :
    Tree.entry? (t.remove place) place' = if place = place' then none else t.entry? place' := by
  unfold entry?
  by_cases root : place' = []
  · rw [if_pos root, if_pos root, if_neg (fun e => h (e.trans root))]
  · rw [if_neg root, if_neg root]
    exact Table.get?_erase ..

/-- The tree in which a file has moved from one place to another. -/
def moved (t : Tree) (old place : List String) (contents : ByteArray) : Tree :=
  if old = place then t else (t.remove old).put place (.file contents)

/-- **Renaming.**  It succeeds where the first path names a file and the second one a place where no directory stands,
and moves the file there. -/
theorem rename_eq_ok_iff {source target : String} :
    t.rename source target = .ok t' ↔ ∃ old place contents, t.Names source old ∧
      t.Names target place ∧ t.entry? old = some (.file contents) ∧
      t.entry? place ≠ some .directory ∧ t' = t.moved old place contents := by
  have last (old place : List String) (contents : ByteArray) :
      (if old = place then Except.ok t else .ok ((t.remove old).put place (.file contents))) =
        (.ok (t.moved old place contents) : Except FileError Tree) :=
    (apply_ite Except.ok ..).symm
  rw [rename, bind_eq_ok_iff]
  constructor
  · rintro ⟨contents, read, h⟩
    obtain ⟨sourceDirectory, sourceName, leads, there⟩ := read_eq_ok_iff.mp read
    obtain ⟨_, resolved, h⟩ := bind_eq_ok_iff.mp h
    cases leads.1.symm.trans resolved
    obtain ⟨⟨directory, ends⟩, resolved', h⟩ := bind_eq_ok_iff.mp h
    match ends, resolved', h with
    | .name name slash, resolved', h =>
        obtain ⟨found, search, h⟩ := bind_eq_ok_iff.mp h
        obtain ⟨short, standing⟩ := find_eq_ok_iff.mp search
        match slash, found, h with
        | false, none, h | false, some (.file _), h =>
            exact ⟨_, _, contents, ⟨_, _, leads, rfl⟩, ⟨_, _, ⟨resolved', short⟩, rfl⟩, there,
              by simp [standing], Except.ok.inj (h.symm.trans (last ..))⟩
  · rintro ⟨_, _, contents, ⟨sourceDirectory, sourceName, leads, rfl⟩,
      ⟨directory, name, leads', rfl⟩, there, free, rfl⟩
    refine ⟨contents, read_eq_ok_iff.mpr ⟨_, _, leads, there⟩, bind_eq_ok_iff.mpr
      ⟨_, leads.1, bind_eq_ok_iff.mpr ⟨_, leads'.1, bind_eq_ok_iff.mpr
        ⟨_, find_eq_ok_iff.mpr ⟨leads'.2, rfl⟩, ?_⟩⟩⟩⟩
    match standing : t.entry? (directory ++ [name]) with
    | none | some (.file _) => exact last ..
    | some .directory => exact absurd standing free

/-- What stands where after a rename. -/
theorem entry?_moved {old place : List String} {contents : ByteArray} (ne : old ≠ [])
    (ne' : place ≠ []) (there : t.entry? old = some (.file contents)) (place' : List String) :
    Tree.entry? (t.moved old place contents) place' =
      if place = place' then some (.file contents)
      else if old = place' then none else t.entry? place' := by
  unfold moved
  by_cases same : old = place
  · subst same
    rw [if_pos rfl]
    split
    · rename_i here
      rw [← here, there]
    · rfl
  · rw [if_neg same, entry?_put ne', entry?_remove ne]

/-- Moving a file to where no directory stands leaves the directories as they are. -/
theorem sameDirectories_moved {old place : List String} {contents : ByteArray} (ne : old ≠ [])
    (ne' : place ≠ []) (there : t.entry? old = some (.file contents))
    (free : t.entry? place ≠ some .directory) : SameDirectories t (t.moved old place contents) := by
  refine ⟨by unfold moved; split <;> rfl, fun place' => ?_⟩
  rw [entry?_moved ne ne' there]
  split
  · rename_i here
    subst here
    exact ⟨fun e => (by cases e), fun e => absurd e free⟩
  · split
    · rename_i here
      rw [← here, there]
      exact ⟨fun e => (by cases e), fun e => (by cases e)⟩
    · exact Iff.rfl

end Metering.Tree
