import Mathlib.Data.List.FinRange
import Mathlib.Data.List.Nodup

/-!
# Proofs — Rearrangement

A list whose elements stand in another order in another list (`Rearrangement`).  Where some of them keep their order
(`Keeps`), these are the same list in both, as a whole and up to each of them (`filter_eq`, `filter_take`): their places
in order are sent to their places in order, as two ascending lists of the same places are equal.
-/

namespace Metering.History

variable {α β : Type}

/-- Where the elements of one list stand in another.  Each has a place there, and no place is left over. -/
structure Rearrangement (xs ys : List α) where
  place : Fin xs.length ≃ Fin ys.length
  same : ∀ i, ys[place i] = xs[i]

/-- What is made of equal numbers of places, one place at a time, is a permutation if it is the same place by place. -/
theorem perm_map_finRange {m n : Nat} (e : Fin m ≃ Fin n) {f : Fin m → β} {g : Fin n → β}
    (h : ∀ i, g (e i) = f i) : ((List.finRange n).map g).Perm ((List.finRange m).map f) := by
  have places : (List.finRange n).Perm ((List.finRange m).map e) := by
    refine (List.perm_ext_iff_of_nodup (List.nodup_finRange n)
      ((List.nodup_finRange m).map e.injective)).mpr fun j => ?_
    simp only [List.mem_finRange, List.mem_map, true_and, true_iff]
    exact ⟨e.symm j, e.apply_symm_apply j⟩
  have images := places.map g
  rw [List.map_map] at images
  exact images.trans (List.Perm.of_eq (List.map_congr_left fun i _ => h i))

/-- The elements before a place are those at the lesser places. -/
theorem take_eq_map_filter (xs : List α) (n : Nat) :
    xs.take n = ((List.finRange xs.length).filter fun i => i.val < n).map xs.get := by
  induction xs generalizing n with
  | nil => simp
  | cons x xs ih =>
      have places : List.finRange (x :: xs).length = 0 :: (List.finRange xs.length).map Fin.succ :=
        List.finRange_succ
      cases n with
      | zero => simp
      | succ n =>
          rw [List.take_succ_cons, ih, places, List.filter_cons_of_pos (by simp), List.filter_map]
          simp [Function.comp_def]

theorem map_filter_finRange (xs : List α) (p : α → Bool) :
    ((List.finRange xs.length).filter fun i => p xs[i]).map xs.get = xs.filter p := by
  conv_rhs => rw [← List.map_get_finRange xs, List.filter_map]
  rfl

namespace Rearrangement

variable {xs ys : List α} (ρ : Rearrangement xs ys) (p : α → Bool)

include ρ in
theorem perm : ys.Perm xs := by
  have places := perm_map_finRange (f := xs.get) (g := ys.get) ρ.place ρ.same
  rwa [List.map_get_finRange, List.map_get_finRange] at places

/-- The elements that satisfy `p` keep their order. -/
def Keeps : Prop := ∀ i j, i < j → p xs[i] = true → p xs[j] = true → ρ.place i < ρ.place j

variable {ρ p}

theorem Keeps.lt_iff (h : ρ.Keeps p) {i j : Fin xs.length} (hi : p xs[i] = true)
    (hj : p xs[j] = true) : ρ.place i < ρ.place j ↔ i < j := by
  refine ⟨fun hlt => ?_, fun hlt => h i j hlt hi hj⟩
  rcases lt_trichotomy i j with hij | rfl | hji
  · exact hij
  · exact absurd hlt (lt_irrefl _)
  · exact absurd hlt (h j i hji hj hi).asymm

/-- Such elements at some places, in order, stand in this order at the places to which these are sent. -/
theorem Keeps.map_filter (h : ρ.Keeps p) {P : Fin xs.length → Bool} {Q : Fin ys.length → Bool}
    (hP : ∀ i, P i = true → p xs[i] = true) (hQ : ∀ i, Q (ρ.place i) = P i) :
    ((List.finRange ys.length).filter Q).map ys.get =
      ((List.finRange xs.length).filter P).map xs.get := by
  have ascending (n : Nat) : (List.finRange n).Pairwise (· < ·) := by
    rw [← List.ofFn_id]
    exact List.pairwise_ofFn.mpr fun i j hij => hij
  -- two ascending lists of the same places
  have places : (List.finRange ys.length).filter Q =
      ((List.finRange xs.length).filter P).map ρ.place := by
    refine List.Perm.eq_of_pairwise (fun a b _ _ hab hba => absurd hab hba.asymm)
      ((ascending _).filter Q) (List.pairwise_map.mpr ?_) ?_
    · refine ((ascending _).filter P).imp_of_mem fun hi hj hij => ?_
      exact h _ _ hij (hP _ (List.mem_filter.mp hi).2) (hP _ (List.mem_filter.mp hj).2)
    · refine (List.perm_ext_iff_of_nodup ((List.nodup_finRange _).filter _)
        (((List.nodup_finRange _).filter _).map ρ.place.injective)).mpr fun j => ?_
      obtain ⟨i, rfl⟩ := ρ.place.surjective j
      simp [hQ]
  rw [places, List.map_map]
  exact List.map_congr_left fun i _ => ρ.same i

/-- **All of them.**  They are the same list in both. -/
theorem Keeps.filter_eq (h : ρ.Keeps p) : ys.filter p = xs.filter p := by
  have same := h.map_filter (P := fun i => p xs[i]) (Q := fun j => p ys[j]) (fun _ hi => hi)
    fun i => congrArg p (ρ.same i)
  rwa [map_filter_finRange, map_filter_finRange] at same

/-- **Up to one of them.** -/
theorem Keeps.filter_take (h : ρ.Keeps p) (i : Fin xs.length) (hi : p xs[i] = true) :
    (ys.take (ρ.place i)).filter p = (xs.take i).filter p := by
  rw [take_eq_map_filter, take_eq_map_filter, List.filter_map, List.filter_map, List.filter_filter,
    List.filter_filter]
  refine h.map_filter (fun j hj => (Bool.and_eq_true_iff.mp hj).1) fun j => ?_
  have kept : p (ys.get (ρ.place j)) = p (xs.get j) := congrArg p (ρ.same j)
  rw [Function.comp_apply, Function.comp_apply, kept]
  cases hj : p (xs.get j) with
  | false => rfl
  | true => exact congrArg (true && ·) (decide_eq_decide.mpr (h.lt_iff hj hi))

end Rearrangement

end Metering.History
