import Mathlib.Data.List.TakeWhile
import Metering.Proofs.File.Rename

/-!
# Proofs — File — Extension

A path with another extension.  What a path leads to stands last in it, behind a slash if there is more (`Ends`), and
`Path.withExtension` puts the new extension in place of the old one there; only a name such as `..x` loses so much that
it no longer is one (`withExtension_eq`).  So a path and itself with another extension that has a dot never name the
same place (`ne_of_withExtension`), and what such an extension leads to ends with it (`suffix_of_withExtension`).
-/

namespace Metering

/-- Pieces of two sequences that a separator joins. -/
theorem Text.pieces_join {α : Type} [DecidableEq α] (sep : α) (xs ys : List α) :
    pieces sep (xs ++ sep :: ys) = pieces sep xs ++ pieces sep ys := by
  induction xs with
  | nil => exact pieces_cons_self sep ys
  | cons x xs ih =>
      by_cases h : x = sep
      · subst h
        rw [List.cons_append, pieces_cons_self, pieces_cons_self, ih, List.cons_append]
      · obtain ⟨p, ps, e⟩ := List.exists_cons_of_ne_nil (pieces_ne_nil sep xs)
        rw [List.cons_append, pieces_cons_ne h, pieces_cons_ne h, ih, e]
        rfl

/-- What stands behind the last separator is found from the end. -/
theorem Text.takeWhile_reverse_append {α : Type} [DecidableEq α] {sep : α} {xs : List α}
    (h : sep ∉ xs) (ys : List α) :
    (xs.reverse ++ ys).takeWhile (· ≠ sep) = xs.reverse ++ ys.takeWhile (· ≠ sep) := by
  refine List.takeWhile_append_of_pos fun x mem => decide_eq_true ?_
  rintro rfl
  exact h (List.mem_reverse.mp mem)

namespace Path

/-- A path that ends in a file name, behind a directory part that is empty or has a slash at its end. -/
structure Ends (path directory name : List Char) : Prop where
  whole : path = directory ++ name
  slash : directory = [] ∨ ∃ up, directory = up ++ ['/']
  separate : '/' ∉ name
  nonempty : name ≠ []
  notHere : name ≠ ['.']
  notUp : name ≠ ['.', '.']

variable {path directory name : List Char}

/-- The last piece of a path is what stands behind its directory part. -/
theorem getLast?_pieces (slash : directory = [] ∨ ∃ up, directory = up ++ ['/'])
    (separate : '/' ∉ name) : (Text.pieces '/' (directory ++ name)).getLast? = some name := by
  rcases slash with rfl | ⟨up, rfl⟩
  · rw [List.nil_append, Text.pieces_of_not_mem separate]
    rfl
  · rw [List.append_assoc, List.singleton_append, Text.pieces_join, Text.pieces_of_not_mem separate]
    exact List.getLast?_concat

/-- Every path is some directory part and what stands behind it. -/
theorem exists_split (path : List Char) :
    ∃ directory name, path = directory ++ name ∧
      (directory = [] ∨ ∃ up, directory = up ++ ['/']) ∧ '/' ∉ name := by
  by_cases mem : '/' ∈ path.reverse
  · obtain ⟨after, before, parted, separate⟩ := List.eq_append_cons_of_mem mem
    refine ⟨before.reverse ++ ['/'], after.reverse, ?_, .inr ⟨_, rfl⟩, by simpa using separate⟩
    rw [← List.reverse_reverse path, parted]
    simp
  · exact ⟨[], path, rfl, .inl rfl, by simpa using mem⟩

/-! ### File names -/

/-- Nothing is trimmed at the end of a path that ends in a file name. -/
theorem Ends.trimmed_eq (h : Ends path directory name) : trimmed path = path := by
  have kept (first : Char) (rest : List Char) (slash : first ≠ '/')
      (dot : first = '.' → rest.head? ≠ some '/') : trimmed.trim (first :: rest) = first :: rest := by
    unfold trimmed.trim
    split <;> simp_all
  rw [trimmed, h.whole, List.reverse_append]
  have separate : '/' ∉ name.reverse := by simpa using h.separate
  match e : name.reverse with
  | [] => exact absurd (List.reverse_eq_nil_iff.mp e) h.nonempty
  | [last] =>
      rw [e] at separate
      have whole : name = [last] := by rw [← List.reverse_reverse name, e]; rfl
      have slash : last ≠ '/' := by rintro rfl; exact separate List.mem_cons_self
      rw [List.singleton_append, kept last _ slash fun dot => absurd (dot ▸ whole) h.notHere]
      simp [whole]
  | last :: before :: rest =>
      rw [e] at separate
      have whole : name = (last :: before :: rest).reverse := by rw [← e, List.reverse_reverse]
      have slash : last ≠ '/' := by rintro rfl; exact separate List.mem_cons_self
      have slash' : before ≠ '/' := by rintro rfl; exact separate (by simp)
      rw [List.cons_append, kept last _ slash fun _ e => slash' (by simpa using e)]
      simp [whole]

/-- The last slash is found from the end. -/
theorem behind_last_slash (slash : directory = [] ∨ ∃ up, directory = up ++ ['/'])
    (separate : '/' ∉ name) :
    ((directory ++ name).reverse.takeWhile (· ≠ '/')).reverse = name := by
  rw [List.reverse_append, Text.takeWhile_reverse_append separate]
  rcases slash with rfl | ⟨up, rfl⟩ <;> simp

theorem Ends.splitFileName_eq (h : Ends path directory name) :
    splitFileName path = some (directory, name) := by
  have part : (directory ++ name).take ((directory ++ name).length - name.length) = directory := by
    simp
  rw [splitFileName, h.trimmed_eq, h.whole]
  simp only [behind_last_slash h.slash h.separate, part, h.nonempty, h.notHere, h.notUp, or_self,
    if_false]

/-- A path to the directory above ends in no file name. -/
theorem splitFileName_up (slash : directory = [] ∨ ∃ up, directory = up ++ ['/']) :
    splitFileName (directory ++ ['.', '.']) = none := by
  have kept : trimmed (directory ++ ['.', '.']) = directory ++ ['.', '.'] := by
    rw [trimmed, List.reverse_append]
    change (trimmed.trim ('.' :: '.' :: directory.reverse)).reverse = _
    simp [trimmed.trim]
  rw [splitFileName, kept]
  simp only [behind_last_slash slash (by decide : '/' ∉ ['.', '.']), or_true, if_true]

/-! ### Extensions -/

/-- The extension of a file name is what stands behind its last dot, if something stands before it. -/
theorem splitExtension_of_dot (stem : List Char) {extension : List Char} (dotless : '.' ∉ extension) :
    splitExtension (stem ++ '.' :: extension) =
      if stem = [] then ('.' :: extension, none) else (stem, some extension) := by
  have last : ((stem ++ '.' :: extension).reverse.takeWhile (· ≠ '.')).reverse = extension := by
    rw [List.reverse_append, List.reverse_cons, List.append_assoc,
      Text.takeWhile_reverse_append dotless]
    simp
  have size : (stem ++ '.' :: extension).length - extension.length = stem.length + 1 := by
    simp only [List.length_append, List.length_cons]
    omega
  rw [splitExtension, last]
  simp only [size]
  cases stem with
  | nil => simp
  | cons c stem => simp

theorem splitExtension_of_dotless (dotless : '.' ∉ name) : splitExtension name = (name, none) := by
  have all := Text.takeWhile_reverse_append dotless []
  rw [List.append_nil, List.takeWhile_nil, List.append_nil] at all
  rw [splitExtension, all]
  simp

theorem splitExtension_cases (name : List Char) :
    splitExtension name = (name, none) ∨ ∃ stem extension, name = stem ++ '.' :: extension ∧
      stem ≠ [] ∧ '.' ∉ extension ∧ splitExtension name = (stem, some extension) := by
  by_cases dot : '.' ∈ name.reverse
  · obtain ⟨after, before, parted, dotless⟩ := List.eq_append_cons_of_mem dot
    have whole : name = before.reverse ++ '.' :: after.reverse := by
      rw [← List.reverse_reverse name, parted]
      simp
    have dotless' : '.' ∉ after.reverse := by simpa using dotless
    have split := splitExtension_of_dot before.reverse dotless'
    rw [← whole] at split
    by_cases nothing : before.reverse = []
    · rw [if_pos nothing] at split
      rw [nothing, List.nil_append] at whole
      exact .inl (by rw [split, ← whole])
    · rw [if_neg nothing] at split
      exact .inr ⟨_, _, whole, nothing, dotless', split⟩
  · exact .inl (splitExtension_of_dotless (by simpa using dot))

/-- Another extension takes the place of the old one, behind what is left of the file name; or the path ends in no file
name any more. -/
theorem withExtension_eq (h : Ends path directory name) (extension : String) :
    (withExtension (String.ofList path) extension).toList =
        directory ++ ((splitExtension name).1 ++ '.' :: extension.toList) ∨
      (withExtension (String.ofList path) extension).toList = directory ++ ['.', '.'] := by
  rw [withExtension]
  simp only [String.toList_ofList, h.splitFileName_eq, Option.bind_some]
  rcases splitExtension_cases name with split | ⟨stem, old, whole, some_stem, -, split⟩
  · left
    simp [split, h.splitFileName_eq]
  · -- the old extension goes first, so what is looked at again ends with a dot
    have bare : path.take (path.length - old.length) = directory ++ (stem ++ ['.']) := by
      have parted : path = (directory ++ (stem ++ ['.'])) ++ old := by rw [h.whole, whole]; simp
      rw [parted, List.length_append, Nat.add_sub_cancel, List.take_left]
    simp only [split, Option.getD_some, bare]
    by_cases up : stem = ['.']
    · right
      subst up
      simp [splitFileName_up h.slash]
    · left
      have ends : Ends (directory ++ (stem ++ ['.'])) directory (stem ++ ['.']) := by
        refine ⟨rfl, h.slash, ?_, by simp, by simpa using some_stem, fun e => up ?_⟩
        · have separate := h.separate
          rw [whole] at separate
          simp_all
        · exact (List.append_inj' e rfl).1
      have dotted := splitExtension_of_dot stem (List.not_mem_nil (a := '.'))
      rw [if_neg some_stem] at dotted
      simp [ends.splitFileName_eq, dotted]

/-- What is left of a file name has no slash if it had none. -/
theorem slash_splitExtension (separate : '/' ∉ name) : '/' ∉ (splitExtension name).1 := by
  rcases splitExtension_cases name with split | ⟨stem, old, whole, -, -, split⟩
  · rwa [split]
  · rw [whole, List.mem_append, not_or] at separate
    rw [split]
    exact separate.1

/-- With an extension that has a dot, a file name becomes another one. -/
theorem ne_splitExtension_append {extension : List Char} (dot : '.' ∈ extension) :
    name ≠ (splitExtension name).1 ++ '.' :: extension := by
  intro same
  rcases splitExtension_cases name with split | ⟨stem, old, whole, -, dotless, split⟩
  · rw [split] at same
    exact absurd (congrArg List.length same) (by simp)
  · rw [split, whole, List.append_cancel_left_eq, List.cons.injEq] at same
    exact dotless (same.2 ▸ dot)

end Path

namespace Tree
open Metering.Path

variable {t : Tree} {path extension : String}

/-- What a path leads to stands last in it. -/
theorem Leads.ends {directory : List String} {name : String} (h : t.Leads path directory name) :
    ∃ front, Ends path.toList front name.toList := by
  have resolved := h.1
  unfold resolve at resolved
  split at resolved
  · cases resolved
  split at resolved
  · cases resolved
  dsimp only at resolved
  split at resolved
  · split at resolved <;> cases resolved
  rename_i last ends
  split at resolved
  · obtain ⟨_, -, e⟩ := map_eq_ok_iff.mp resolved
    cases e
  rename_i named
  obtain ⟨_, -, e⟩ := map_eq_ok_iff.mp resolved
  simp only [Prod.mk.injEq, Last.name.injEq, decide_eq_false_iff_not, not_lt] at e
  obtain ⟨-, rfl, whole⟩ := e
  -- no slash stands behind the name, so the last component is that of the whole path
  have kept : (components path).reverse.dropWhile (· = "") = (components path).reverse := by
    refine (List.dropWhile_suffix _).eq_of_length_le ?_
    simpa using whole
  have nonempty : last ≠ "" := by
    have head := List.head?_dropWhile_not (· = "") (components path).reverse
    rw [List.getLast?_reverse] at ends
    rw [ends] at head
    simpa using head
  rw [kept, List.reverse_reverse, components, List.getLast?_map] at ends
  obtain ⟨front, behind, parted, slash, separate⟩ := exists_split path.toList
  rw [parted, getLast?_pieces slash separate, Option.map_some, Option.some.injEq] at ends
  subst ends
  rw [not_or] at named
  have ne {cs : List Char} (h : String.ofList behind ≠ String.ofList cs) : behind ≠ cs :=
    fun e => h (congrArg String.ofList e)
  refine ⟨front, ?_⟩
  rw [String.toList_ofList]
  exact ⟨parted, slash, separate, ne nonempty, ne named.1, ne named.2⟩

/-- What a path with another extension leads to. -/
theorem Leads.withExtension {directory directory' : List String} {name name' : String}
    (h : t.Leads path directory name) (h' : t.Leads (Path.withExtension path extension) directory' name')
    (separate : '/' ∉ extension.toList) :
    name'.toList = (splitExtension name.toList).1 ++ '.' :: extension.toList := by
  obtain ⟨front, ends⟩ := h.ends
  obtain ⟨front', ends'⟩ := h'.ends
  have last := getLast?_pieces ends'.slash ends'.separate
  have cases := withExtension_eq ends extension
  rw [String.ofList_toList] at cases
  rw [← ends'.whole] at last
  rcases cases with text | text
  · have behind : '/' ∉ (splitExtension name.toList).1 ++ '.' :: extension.toList := by
      simp [slash_splitExtension ends.separate, separate]
    rw [text, getLast?_pieces ends.slash behind] at last
    exact (Option.some.inj last).symm
  · rw [text, getLast?_pieces ends.slash (by decide)] at last
    exact absurd (Option.some.inj last).symm ends'.notUp

/-- **Another extension, another place.** -/
theorem ne_of_withExtension {place place' : List String} (h : t.Names path place)
    (h' : t.Names (Path.withExtension path extension) place') (separate : '/' ∉ extension.toList)
    (dot : '.' ∈ extension.toList) : place' ≠ place := by
  obtain ⟨directory, name, leads, rfl⟩ := h
  obtain ⟨directory', name', leads', rfl⟩ := h'
  intro same
  have last : name' = name := List.singleton_inj.mp (List.append_inj' same rfl).2
  exact ne_splitExtension_append dot (last ▸ leads.withExtension leads' separate)

/-- Any path to the same place ends with the extension. -/
theorem suffix_of_withExtension {other : String} {place place' : List String} (h : t.Names path place)
    (h' : t.Names (Path.withExtension path extension) place') (separate : '/' ∉ extension.toList)
    (also : t.Names other place') : '.' :: extension.toList <:+ other.toList := by
  obtain ⟨directory, name, leads, rfl⟩ := h
  obtain ⟨directory', name', leads', rfl⟩ := h'
  obtain ⟨directory'', name'', leads'', same⟩ := also
  have last : name' = name'' := List.singleton_inj.mp (List.append_inj' same rfl).2
  obtain ⟨front, ends⟩ := leads''.ends
  rw [ends.whole, ← last, leads.withExtension leads' separate, ← List.append_assoc]
  exact List.suffix_append _ _

end Tree

end Metering
