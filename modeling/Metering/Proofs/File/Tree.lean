import Mathlib.Data.List.Basic
import Metering.File.Tree
import Metering.Proofs.Attempt

/-!
# Proofs — File — Tree

Files through paths.  Reading and writing go to one place of a tree, the one that a path names (`place?`), and several
paths may name the same (`SameFile`).  A file that is written stands where no directory stood, so every path goes
through the same directories as before (`resolve_congr`) and names the same place.  Hence what is read afterwards of
any file that could be read: what was written if the paths name the same file, and else what was there
(`read_of_write`).

As a tree has no links, paths of names alone name the same file only if they are the same (`eq_of_sameFile`).  But every
path from the directory in which the program runs has others that name the same file (`sameFile_dot`).
-/

namespace Metering

namespace Path

/-- A path of names alone, from the directory in which the program runs. -/
def Plain (path : String) : Prop :=
  ∀ c ∈ components path, c ≠ "" ∧ c ≠ "." ∧ c ≠ ".."

instance (path : String) : Decidable (Plain path) :=
  inferInstanceAs (Decidable (∀ c ∈ components path, _))

/-- The components of a path determine it. -/
theorem components_injective {p q : String} (h : components p = components q) : p = q := by
  have pieces : Text.pieces '/' p.toList = Text.pieces '/' q.toList :=
    List.map_injective_iff.mpr (fun _ _ e => String.ofList_injective e) h
  rw [← String.toList_inj, ← Text.intercalate_pieces '/' p.toList, pieces, Text.intercalate_pieces]

theorem components_ne_nil (path : String) : components path ≠ [] :=
  fun h => Text.pieces_ne_nil '/' path.toList (List.map_eq_nil_iff.mp h)

theorem components_dot (path : String) : components ("./" ++ path) = "." :: components path := by
  have start : ("./" ++ path).toList = ['.'] ++ '/' :: path.toList := by
    rw [String.toList_append]
    rfl
  rw [components, start, Text.pieces_append (by decide), List.map_cons]
  rfl

/-- A component that is not empty stays when empty ones are dropped at the end. -/
theorem kept_cons {c : String} (h : c ≠ "") (rest : List String) :
    ((c :: rest).reverse.dropWhile (· = "")).reverse =
      c :: (rest.reverse.dropWhile (· = "")).reverse := by
  rw [List.reverse_cons, List.dropWhile_append]
  split
  · rename_i nothing
    rw [List.isEmpty_iff.mp nothing]
    simp [h]
  · rw [List.reverse_append]
    rfl

end Path

namespace Tree

variable {t t' : Tree} {path other : String} {contents : ByteArray}

/-! ### One place -/

theorem entry?_put {place : List String} (h : place ≠ []) (entry : FileEntry) (place' : List String) :
    Tree.entry? (t.put place entry) place' = if place = place' then some entry else t.entry? place' := by
  unfold entry?
  by_cases root : place' = []
  · rw [if_pos root, if_pos root, if_neg (fun e => h (e.trans root))]
  · rw [if_neg root, if_neg root]
    exact Table.get?_insert ..

theorem find_eq_ok_iff {directory : List String} {name : String} {found : Option FileEntry} :
    t.find directory name = .ok found ↔
      name.utf8ByteSize ≤ nameLimit ∧ t.entry? (directory ++ [name]) = found := by
  unfold find
  split
  · rename_i long
    exact ⟨fun h => (by cases h), fun h => absurd h.1 (by omega)⟩
  · rename_i short
    rw [Except.ok.injEq]
    exact ⟨fun h => ⟨by omega, h⟩, And.right⟩

/-! ### Directories -/

/-- Two trees with the same directories, in the same one of which the program runs. -/
structure SameDirectories (t t' : Tree) : Prop where
  here : t'.here = t.here
  directory : ∀ place, t'.entry? place = some .directory ↔ t.entry? place = some .directory

theorem enter_name {directory rest place : List String} {c : String}
    (name : ¬ (c = "" ∨ c = ".")) (name' : c ≠ "..") :
    t.enter directory (c :: rest) = .ok place ↔
      c.utf8ByteSize ≤ nameLimit ∧ t.entry? (directory ++ [c]) = some .directory ∧
        t.enter (directory ++ [c]) rest = .ok place := by
  rw [enter, if_neg name, if_neg name']
  cases found : t.find directory c with
  | error e =>
      refine ⟨fun h => (by cases h), fun ⟨short, there, _⟩ => ?_⟩
      rw [find_eq_ok_iff.mpr ⟨short, there⟩] at found
      cases found
  | ok entry =>
      obtain ⟨short, there⟩ := find_eq_ok_iff.mp found
      rw [there]
      cases entry with
      | none => exact ⟨fun h => (by cases h), fun h => (by cases h.2.1)⟩
      | some entry =>
          cases entry with
          | file => exact ⟨fun h => (by cases h), fun h => (by cases h.2.1)⟩
          | directory => exact ⟨fun h => ⟨short, rfl, h⟩, fun h => h.2.2⟩

/-- Where the directories are the same, so are the ways through them. -/
theorem enter_congr (h : SameDirectories t t') {directory components place : List String}
    (entered : t.enter directory components = .ok place) : t'.enter directory components = .ok place := by
  induction components generalizing directory with
  | nil => exact entered
  | cons c rest ih =>
      by_cases stay : c = "" ∨ c = "."
      · rw [enter, if_pos stay] at entered ⊢
        exact ih entered
      · by_cases up : c = ".."
        · rw [enter, if_neg stay, if_pos up] at entered ⊢
          exact ih entered
        · rw [enter_name stay up] at entered ⊢
          obtain ⟨short, there, onward⟩ := entered
          exact ⟨short, (h.directory _).mpr there, ih onward⟩

/-- What follows from going along components is the same as well. -/
theorem map_enter_congr {α : Type} (h : SameDirectories t t') {directory components : List String}
    {f : List String → α} {x : α} (entered : (t.enter directory components).map f = .ok x) :
    (t'.enter directory components).map f = .ok x := by
  cases e : t.enter directory components with
  | error => rw [e] at entered; cases entered
  | ok place =>
      rw [e] at entered
      rw [enter_congr h e]
      exact entered

theorem resolve_congr (h : SameDirectories t t') {x : List String × Last}
    (resolved : t.resolve path = .ok x) : t'.resolve path = .ok x := by
  unfold resolve at resolved ⊢
  rw [h.here]
  split at resolved
  · cases resolved
  · rename_i clean
    rw [if_neg clean]
    split at resolved
    · cases resolved
    · rename_i short
      rw [if_neg short]
      dsimp only at resolved ⊢
      split at resolved
      · exact resolved
      · split at resolved
        · rename_i relative
          rw [if_pos relative]
          exact map_enter_congr h resolved
        · rename_i named
          rw [if_neg named]
          exact map_enter_congr h resolved

/-- A file that is put where no directory stands leaves the directories as they are. -/
theorem sameDirectories_put {place : List String} (h : place ≠ [])
    (free : t.entry? place ≠ some .directory) (contents : ByteArray) :
    SameDirectories t (t.put place (.file contents)) where
  here := rfl
  directory place' := by
    rw [entry?_put h]
    split
    · rename_i same
      subst same
      exact ⟨fun e => (by cases e), fun e => absurd e free⟩
    · exact Iff.rfl

/-! ### Reading and writing -/

/-- The place that a path names; a slash at its end does not matter. -/
def place? (t : Tree) (path : String) : Option (List String) :=
  match t.resolve path with
  | .ok (directory, .name name _) => some (directory ++ [name])
  | _ => none

/-- Two paths name the same place. -/
def SameFile (t : Tree) (path other : String) : Prop :=
  (t.place? path).isSome = true ∧ t.place? path = t.place? other

instance (t : Tree) (path other : String) : Decidable (t.SameFile path other) :=
  inferInstanceAs (Decidable (_ ∧ _))

/-- A path leads to a name in a directory, with no slash after it. -/
def Leads (t : Tree) (path : String) (directory : List String) (name : String) : Prop :=
  t.resolve path = .ok (directory, .name name false) ∧ name.utf8ByteSize ≤ nameLimit

theorem Leads.place?_eq {directory : List String} {name : String} (h : t.Leads path directory name) :
    t.place? path = some (directory ++ [name]) := by
  rw [place?, h.1]

/-- **Reading.**  What is read is the file at the place that a path leads to. -/
theorem read_eq_ok_iff :
    t.read path = .ok contents ↔ ∃ directory name, t.Leads path directory name ∧
      t.entry? (directory ++ [name]) = some (.file contents) := by
  rw [read, bind_eq_ok_iff]
  constructor
  · rintro ⟨⟨directory, last⟩, resolved, h⟩
    cases last with
    | relative => cases h
    | name name slash =>
        obtain ⟨entry, found, h⟩ := bind_eq_ok_iff.mp h
        obtain ⟨short, there⟩ := find_eq_ok_iff.mp found
        match entry, slash, h with
        | some (.file _), false, rfl => exact ⟨directory, name, ⟨resolved, short⟩, there⟩
  · rintro ⟨directory, name, ⟨resolved, short⟩, there⟩
    exact ⟨_, resolved, bind_eq_ok_iff.mpr ⟨_, find_eq_ok_iff.mpr ⟨short, there⟩, rfl⟩⟩

/-- **Writing.**  It succeeds where no directory stands at the place that a path leads to, and changes this place
alone. -/
theorem write_eq_ok_iff :
    t.write path contents = .ok t' ↔ ∃ directory name, t.Leads path directory name ∧
      t.entry? (directory ++ [name]) ≠ some .directory ∧
      t' = t.put (directory ++ [name]) (.file contents) := by
  rw [write, bind_eq_ok_iff]
  constructor
  · rintro ⟨⟨directory, last⟩, resolved, h⟩
    match last, resolved, h with
    | .name name false, resolved, h =>
        obtain ⟨entry, found, h⟩ := bind_eq_ok_iff.mp h
        obtain ⟨short, there⟩ := find_eq_ok_iff.mp found
        refine ⟨directory, name, ⟨resolved, short⟩, ?_⟩
        match entry, h with
        | none, rfl | some (.file _), rfl => exact ⟨by simp [there], rfl⟩
  · rintro ⟨directory, name, ⟨resolved, short⟩, free, rfl⟩
    refine ⟨_, resolved, bind_eq_ok_iff.mpr ⟨_, find_eq_ok_iff.mpr ⟨short, rfl⟩, ?_⟩⟩
    match there : t.entry? (directory ++ [name]) with
    | none | some (.file _) => rfl
    | some .directory => exact absurd there free

/-- What is written is read. -/
theorem read_written (written : t.write path contents = .ok t') : t'.read path = .ok contents := by
  obtain ⟨directory, name, ⟨resolved, short⟩, free, rfl⟩ := write_eq_ok_iff.mp written
  have place : directory ++ [name] ≠ [] := by simp
  refine read_eq_ok_iff.mpr ⟨directory, name,
    ⟨resolve_congr (sameDirectories_put place free contents) resolved, short⟩, ?_⟩
  rw [entry?_put place, if_pos rfl]

/-- **Reading after writing.**  A file that could be read is what was written if its path names the place of this, and
else what it was. -/
theorem read_of_write (written : t.write path contents = .ok t') {before : ByteArray}
    (readable : t.read other = .ok before) :
    t'.read other = .ok (if t.SameFile other path then contents else before) := by
  obtain ⟨directory, name, leads, free, rfl⟩ := write_eq_ok_iff.mp written
  obtain ⟨directory', name', leads', there⟩ := read_eq_ok_iff.mp readable
  have place : directory ++ [name] ≠ [] := by simp
  have same : t.SameFile other path ↔ directory ++ [name] = directory' ++ [name'] := by
    rw [SameFile, leads.place?_eq, leads'.place?_eq, Option.some.injEq]
    exact ⟨fun h => h.2.symm, fun h => ⟨rfl, h.symm⟩⟩
  refine read_eq_ok_iff.mpr ⟨directory', name',
    ⟨resolve_congr (sameDirectories_put place free contents) leads'.1, leads'.2⟩, ?_⟩
  rw [entry?_put place]
  simp only [same]
  split
  · rfl
  · exact there

/-! ### Paths of names alone -/

/-- A path of names alone is entered name by name. -/
theorem enter_of_plain {directory components place : List String}
    (plain : ∀ c ∈ components, c ≠ "" ∧ c ≠ "." ∧ c ≠ "..")
    (entered : t.enter directory components = .ok place) : place = directory ++ components := by
  induction components generalizing directory with
  | nil =>
      rw [enter, Except.ok.injEq] at entered
      rw [List.append_nil, entered]
  | cons c rest ih =>
      obtain ⟨nonempty, notHere, notUp⟩ := plain c List.mem_cons_self
      obtain ⟨-, -, onward⟩ := (enter_name (by simp [nonempty, notHere]) notUp).mp entered
      rw [ih (fun x hx => plain x (List.mem_cons_of_mem c hx)) onward, List.append_assoc,
        List.singleton_append]

/-- It leads to its last name, in the directory of the others from that in which the program runs. -/
theorem resolve_of_plain (plain : Path.Plain path) {x : List String × Last}
    (resolved : t.resolve path = .ok x) :
    ∃ names last, Path.components path = names ++ [last] ∧
      x = (t.here ++ names, .name last false) := by
  obtain ⟨names, last, ends⟩ :=
    (List.eq_nil_or_concat' (Path.components path)).resolve_left (Path.components_ne_nil path)
  rw [Path.Plain, ends] at plain
  obtain ⟨nonempty, notHere, notUp⟩ := plain last (by simp)
  have relative : (names ++ [last]).head? ≠ some "" := fun h => (plain "" (List.mem_of_head? h)).1 rfl
  have kept : ((names ++ [last]).reverse.dropWhile (· = "")).reverse = names ++ [last] := by
    simp [nonempty]
  unfold resolve at resolved
  split at resolved
  · cases resolved
  · split at resolved
    · cases resolved
    · rw [ends] at resolved
      simp only [kept, if_neg relative, List.getLast?_concat, notHere, notUp, or_self, if_false,
        List.dropLast_concat, Nat.lt_irrefl, decide_false] at resolved
      cases entered : t.enter t.here names with
      | error => rw [entered] at resolved; cases resolved
      | ok place =>
          have names_plain : ∀ c ∈ names, c ≠ "" ∧ c ≠ "." ∧ c ≠ ".." :=
            fun c hc => plain c (List.mem_append_left _ hc)
          rw [entered, enter_of_plain names_plain entered] at resolved
          cases resolved
          exact ⟨names, last, ends, rfl⟩

theorem place?_of_plain (plain : Path.Plain path) {place : List String} (h : t.place? path = some place) :
    place = t.here ++ Path.components path := by
  unfold place? at h
  split at h
  · rename_i directory name slash resolved
    obtain ⟨names, last, ends, same⟩ := resolve_of_plain plain resolved
    cases same
    cases h
    rw [ends, List.append_assoc]
  · cases h

/-- **Paths of names alone** name the same file only if they are the same, as no name in a tree is a link. -/
theorem eq_of_sameFile (plain : Path.Plain path) (plain' : Path.Plain other)
    (same : t.SameFile path other) : path = other := by
  obtain ⟨place, there⟩ := Option.isSome_iff_exists.mp same.1
  have there' : t.place? other = some place := same.2.symm.trans there
  exact Path.components_injective (List.append_cancel_left
    ((place?_of_plain plain there).symm.trans (place?_of_plain plain' there')))

/-- A name leads to itself, in the directory in which the program runs. -/
theorem leads_of_name (t : Tree) {name : String} (whole : Path.components name = [name])
    (plain : Path.Plain name) (clean : '\x00' ∉ name.toList) (short : name.utf8ByteSize ≤ nameLimit) :
    t.Leads name t.here name := by
  obtain ⟨nonempty, notHere, notUp⟩ := plain name (by simp [whole])
  have fits : ¬ pathLimit < name.utf8ByteSize := by
    have : nameLimit ≤ pathLimit := by decide
    omega
  refine ⟨?_, short⟩
  simp [resolve, String.contains_char_eq, clean, fits, whole, nonempty, notHere, notUp, enter, Except.map]

/-! ### The directory in which the program runs -/

/-- A path from the directory in which the program runs may begin with a component for it. -/
theorem resolve_dot (t : Tree) (relative : (Path.components path).head? ≠ some "")
    (short : ("./" ++ path).utf8ByteSize ≤ pathLimit) : t.resolve ("./" ++ path) = t.resolve path := by
  have clean : ("./" ++ path).contains '\x00' = path.contains '\x00' := by
    simp [String.contains_char_eq]
  have short' : path.utf8ByteSize ≤ pathLimit := by
    rw [String.utf8ByteSize_append] at short
    omega
  obtain ⟨first, rest, starts⟩ := List.exists_cons_of_ne_nil (Path.components_ne_nil path)
  have nonempty : first ≠ "" := by simpa [starts] using relative
  have kept := Path.kept_cons nonempty rest
  have kept' := Path.kept_cons (show "." ≠ "" by decide) (first :: rest)
  have stay (more : List String) : t.enter t.here ("." :: more) = t.enter t.here more := by
    rw [enter, if_pos (.inr rfl)]
  rw [kept] at kept'
  unfold resolve
  rw [clean, if_neg (Nat.not_lt.mpr short), if_neg (Nat.not_lt.mpr short')]
  simp only [Path.components_dot, starts, kept, kept', List.getLast?_cons_cons, List.dropLast_cons_cons]
  -- the added component is no last one, so both paths end in the same way
  rw [List.getLast?_cons]
  simp only [List.head?_cons, Option.some.injEq, nonempty, if_false, stay, show "." ≠ "" by decide,
    List.length_cons, Nat.add_lt_add_iff_right]

theorem sameFile_dot (relative : (Path.components path).head? ≠ some "")
    (short : ("./" ++ path).utf8ByteSize ≤ pathLimit) (named : (t.place? path).isSome = true) :
    t.SameFile path ("./" ++ path) :=
  ⟨named, by rw [place?, place?, t.resolve_dot relative short]⟩

theorem Leads.dot {directory : List String} {name : String} (h : t.Leads path directory name)
    (relative : (Path.components path).head? ≠ some "")
    (short : ("./" ++ path).utf8ByteSize ≤ pathLimit) : t.Leads ("./" ++ path) directory name :=
  ⟨(t.resolve_dot relative short).trans h.1, h.2⟩

/-- What leads anywhere is no longer than paths may be. -/
theorem Leads.short {directory : List String} {name : String} (h : t.Leads path directory name) :
    path.utf8ByteSize ≤ pathLimit := by
  have resolved := h.1
  unfold resolve at resolved
  split at resolved
  · cases resolved
  · split at resolved
    · cases resolved
    · omega

end Tree

end Metering
