/-!
# Text — Split

Cutting a sequence at its first separator (`cut`) and at every separator (`pieces`).  A cut loses nothing but the
separator (`append_of_cut`) and its first part holds none (`not_mem_of_cut`); pieces joined by the separator give
the sequence back (`intercalate_pieces`), there is always at least one, and none of them holds a separator.  They are
the only such pieces (`pieces_intercalate`).
-/

namespace Metering.Text

variable {α : Type} [DecidableEq α]

/-- What stands before and after the first `sep`, if there is one. -/
def cut (sep : α) (xs : List α) : Option (List α × List α) :=
  match xs.dropWhile (· ≠ sep) with
  | [] => none
  | _ :: after => some (xs.takeWhile (· ≠ sep), after)

/-- The pieces between the separators, in order and with the empty ones. -/
def pieces (sep : α) (xs : List α) : List (List α) :=
  xs.foldr
    (fun x ps => if x = sep then [] :: ps else (x :: ps.headD []) :: ps.tail)
    [[]]

/-! ### Cuts -/

theorem cut_nil (sep : α) : cut sep [] = none := rfl

theorem cut_cons_self (sep : α) (xs : List α) : cut sep (sep :: xs) = some ([], xs) := by
  simp [cut]

theorem cut_cons_ne {sep x : α} (h : x ≠ sep) (xs : List α) :
    cut sep (x :: xs) = (cut sep xs).map fun p => (x :: p.1, p.2) := by
  simp only [cut, List.dropWhile_cons, List.takeWhile_cons, h, ne_eq, not_false_eq_true, decide_true,
    if_true]
  cases xs.dropWhile (· ≠ sep) <;> rfl

theorem cut_append {sep : α} {xs : List α} (h : sep ∉ xs) (ys : List α) :
    cut sep (xs ++ sep :: ys) = some (xs, ys) := by
  induction xs with
  | nil => exact cut_cons_self sep ys
  | cons x xs ih =>
      have hx : x ≠ sep := fun e => h (e ▸ List.mem_cons_self)
      rw [List.cons_append, cut_cons_ne hx, ih fun m => h (List.mem_cons_of_mem x m)]
      rfl

theorem cut_eq_none_iff {sep : α} {xs : List α} : cut sep xs = none ↔ sep ∉ xs := by
  induction xs with
  | nil => simp [cut_nil]
  | cons x xs ih =>
      by_cases h : x = sep
      · subst h; simp [cut_cons_self]
      · rw [cut_cons_ne h, Option.map_eq_none_iff, ih]
        simp [List.mem_cons, Ne.symm h]

/-- A cut is exactly a decomposition at the first separator. -/
theorem cut_eq_some_iff {sep : α} {xs a b : List α} :
    cut sep xs = some (a, b) ↔ sep ∉ a ∧ xs = a ++ sep :: b := by
  constructor
  · intro h
    induction xs generalizing a with
    | nil => simp [cut_nil] at h
    | cons x xs ih =>
        by_cases hx : x = sep
        · subst hx
          rw [cut_cons_self, Option.some.injEq, Prod.mk.injEq] at h
          obtain ⟨rfl, rfl⟩ := h
          simp
        · rw [cut_cons_ne hx, Option.map_eq_some_iff] at h
          obtain ⟨⟨a', b'⟩, h', e⟩ := h
          simp only [Prod.mk.injEq] at e
          obtain ⟨rfl, rfl⟩ := e
          obtain ⟨hn, rfl⟩ := ih h'
          exact ⟨by simp [hn, Ne.symm hx], rfl⟩
  · rintro ⟨h, rfl⟩
    exact cut_append h b

theorem append_of_cut {sep : α} {xs a b : List α} (h : cut sep xs = some (a, b)) :
    xs = a ++ sep :: b :=
  (cut_eq_some_iff.mp h).2

theorem not_mem_of_cut {sep : α} {xs a b : List α} (h : cut sep xs = some (a, b)) : sep ∉ a :=
  (cut_eq_some_iff.mp h).1

/-! ### Pieces -/

theorem pieces_nil (sep : α) : pieces sep [] = [[]] := rfl

theorem pieces_cons_self (sep : α) (xs : List α) : pieces sep (sep :: xs) = [] :: pieces sep xs := by
  simp [pieces]

theorem pieces_cons_ne {sep x : α} (h : x ≠ sep) (xs : List α) :
    pieces sep (x :: xs) = (x :: (pieces sep xs).headD []) :: (pieces sep xs).tail := by
  simp [pieces, h]

/-- What stands before a separator and holds none is a piece. -/
theorem pieces_append {sep : α} {xs : List α} (h : sep ∉ xs) (ys : List α) :
    pieces sep (xs ++ sep :: ys) = xs :: pieces sep ys := by
  induction xs with
  | nil => exact pieces_cons_self sep ys
  | cons x xs ih =>
      have hx : x ≠ sep := fun e => h (e ▸ List.mem_cons_self)
      rw [List.cons_append, pieces_cons_ne hx, ih fun m => h (List.mem_cons_of_mem x m)]
      rfl

theorem pieces_ne_nil (sep : α) (xs : List α) : pieces sep xs ≠ [] := by
  cases xs with
  | nil => simp [pieces_nil]
  | cons x xs =>
      by_cases h : x = sep
      · subst h; simp [pieces_cons_self]
      · simp [pieces_cons_ne h]

theorem intercalate_pieces (sep : α) (xs : List α) : [sep].intercalate (pieces sep xs) = xs := by
  induction xs with
  | nil => rfl
  | cons x xs ih =>
      obtain ⟨p, ps, e⟩ := List.exists_cons_of_ne_nil (pieces_ne_nil sep xs)
      by_cases h : x = sep
      · subst h
        rw [pieces_cons_self, e]
        rw [e] at ih
        simp [List.intercalate, List.intersperse] at ih ⊢
        exact ih
      · rw [pieces_cons_ne h, e]
        rw [e] at ih
        cases ps <;> simp_all [List.intercalate, List.intersperse]

theorem not_mem_of_mem_pieces {sep : α} {xs p : List α} (h : p ∈ pieces sep xs) : sep ∉ p := by
  induction xs generalizing p with
  | nil => simp [pieces_nil] at h; simp [h]
  | cons x xs ih =>
      obtain ⟨q, qs, e⟩ := List.exists_cons_of_ne_nil (pieces_ne_nil sep xs)
      by_cases hx : x = sep
      · subst hx
        rw [pieces_cons_self, List.mem_cons] at h
        rcases h with rfl | h
        · simp
        · exact ih h
      · rw [pieces_cons_ne hx, e, List.mem_cons] at h
        rcases h with rfl | h
        · simp [Ne.symm hx, ih (e ▸ List.mem_cons_self : q ∈ pieces sep xs)]
        · exact ih (e ▸ List.mem_cons_of_mem q h)

theorem pieces_of_not_mem {sep : α} {xs : List α} (h : sep ∉ xs) : pieces sep xs = [xs] := by
  induction xs with
  | nil => rfl
  | cons x xs ih =>
      rw [List.mem_cons, not_or] at h
      rw [pieces_cons_ne (Ne.symm h.1), ih h.2]
      rfl

/-- Parts that hold no separator are the pieces of what they are joined to. -/
theorem pieces_intercalate {sep : α} {ps : List (List α)} (ne : ps ≠ [])
    (h : ∀ p ∈ ps, sep ∉ p) : pieces sep ([sep].intercalate ps) = ps := by
  induction ps with
  | nil => exact absurd rfl ne
  | cons p ps ih =>
      rw [List.forall_mem_cons] at h
      cases ps with
      | nil => rw [List.intercalate_singleton, pieces_of_not_mem h.1]
      | cons q ps =>
          rw [List.intercalate_cons_cons, List.append_assoc, List.singleton_append,
            pieces_append h.1, ih (List.cons_ne_nil q ps) h.2]

end Metering.Text
