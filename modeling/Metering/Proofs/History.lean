import Mathlib.Data.List.Induction
import Mathlib.Data.List.Nodup

/-!
# Proofs — History

Lists read as histories, the latest element last.

* `mapBefore`: each element seen with those before it.
* `filterMap_flatMap`: a list of lists, each of which makes at most one thing.
* `flatMap_eq_append_cons`: a place in a list of lists is a place in one of them.
* `eraseDups`: the first occurrences (`eraseDups_concat`, `nodup_eraseDups`).
* `Alternating`: beginnings and ends take turns.  What may follow is told by the last of them (`alternating_concat`).
-/

namespace Metering.History

variable {α β : Type}

/-! ### What came before -/

/-- What `g` makes of each element and of those before it. -/
def mapBefore (g : List α → α → β) (xs : List α) : List β :=
  xs.mapIdx fun i x => g (xs.take i) x

theorem mapBefore_concat (g : List α → α → β) (xs : List α) (x : α) :
    mapBefore g (xs ++ [x]) = mapBefore g xs ++ [g xs x] := by
  have earlier : (xs.mapIdx fun i y => g ((xs ++ [x]).take i) y) =
      xs.mapIdx fun i y => g (xs.take i) y := by
    rw [List.mapIdx_eq_mapIdx_iff]
    intro i hi
    rw [List.take_append_of_le_length (Nat.le_of_lt hi)]
  rw [mapBefore, List.mapIdx_concat, earlier, List.take_left, mapBefore]

theorem mem_mapBefore {g : List α → α → β} {xs : List α} {b : β} :
    b ∈ mapBefore g xs ↔ ∃ before x after, xs = before ++ x :: after ∧ b = g before x := by
  induction xs using List.reverseRecOn with
  | nil => simp [mapBefore]
  | append_singleton xs x ih =>
      rw [mapBefore_concat, List.mem_append, List.mem_singleton, ih]
      refine ⟨?_, ?_⟩
      · rintro (⟨before, y, after, rfl, rfl⟩ | rfl)
        · exact ⟨before, y, after ++ [x], by simp, rfl⟩
        · exact ⟨xs, x, [], rfl, rfl⟩
      · rintro ⟨before, y, after, split, rfl⟩
        rcases List.eq_nil_or_concat after with rfl | ⟨after, last, rfl⟩
        · obtain ⟨rfl, same⟩ := List.append_inj' split rfl
          cases same
          exact .inr rfl
        · rw [List.concat_eq_append, ← List.cons_append, ← List.append_assoc] at split
          obtain ⟨rfl, -⟩ := List.append_inj' split rfl
          exact .inl ⟨before, y, after, rfl, rfl⟩

/-! ### Steps that may be missing -/

theorem filterMap_toList (o : Option α) (g : α → Option β) :
    o.toList.filterMap g = (o.bind g).toList := by
  cases o with
  | none => rfl
  | some a =>
      rw [Option.toList_some, List.filterMap_cons, Option.bind_some]
      cases g a <;> rfl

theorem countP_eq_some [DecidableEq β] (g : α → Option β) (b : β) (xs : List α) :
    xs.countP (fun a => g a = some b) = (xs.filterMap g).count b := by
  rw [List.count, List.countP_filterMap]
  refine List.countP_congr fun a _ => ?_
  cases g a <;> simp

/-- What each element makes in its turn is found by going through the elements. -/
theorem filterMap_flatMap {γ : Type} {f : α → List β} {g : β → Option γ} {step : α → Option γ}
    (h : ∀ a, (f a).filterMap g = (step a).toList) (xs : List α) :
    (xs.flatMap f).filterMap g = xs.filterMap step := by
  induction xs with
  | nil => rfl
  | cons x xs ih =>
      rw [List.flatMap_cons, List.filterMap_append, ih, h, List.filterMap_cons]
      cases step x <;> rfl

/-- What stands in its place among all that elements make is made by one of them. -/
theorem flatMap_eq_append_cons {f : α → List β} {xs : List α} {before after : List β} {b : β} :
    xs.flatMap f = before ++ b :: after ↔
      ∃ xs₁ x xs₂ inner outer, xs = xs₁ ++ x :: xs₂ ∧ f x = inner ++ b :: outer ∧
        before = xs₁.flatMap f ++ inner ∧ after = outer ++ xs₂.flatMap f := by
  refine ⟨fun h => ?_, ?_⟩
  · induction xs generalizing before with
    | nil => simp at h
    | cons x xs ih =>
        rw [List.flatMap_cons, List.append_eq_append_iff] at h
        rcases h with ⟨inner, rfl, rest⟩ | ⟨outer, here, rest⟩
        · obtain ⟨xs₁, y, xs₂, inner', outer, rfl, hy, rfl, rfl⟩ := ih rest
          exact ⟨x :: xs₁, y, xs₂, inner', outer, rfl, hy, by simp, rfl⟩
        · rcases List.cons_eq_append_iff.mp rest with ⟨rfl, rest'⟩ | ⟨outer', rfl, rfl⟩
          · obtain ⟨xs₁, y, xs₂, inner', outer, rfl, hy, hb, rfl⟩ := @ih [] rest'
            refine ⟨x :: xs₁, y, xs₂, inner', outer, rfl, hy, ?_, rfl⟩
            rw [List.append_nil] at here
            rw [List.flatMap_cons, List.append_assoc, ← hb, List.append_nil, here]
          · exact ⟨[], x, xs, before, outer', rfl, here, rfl, rfl⟩
  · rintro ⟨xs₁, x, xs₂, inner, outer, rfl, hx, rfl, rfl⟩
    simp [hx]

/-! ### First occurrences -/

/-- One more element is kept if it is no repetition. -/
theorem eraseDups_concat [BEq α] [LawfulBEq α] (xs : List α) (x : α) :
    (xs ++ [x]).eraseDups = xs.eraseDups ++ if x ∈ xs then [] else [x] := by
  rw [List.eraseDups_append]
  by_cases h : x ∈ xs <;> simp [List.removeAll, List.eraseDups_cons, h]

theorem nodup_eraseDups [BEq α] [LawfulBEq α] (xs : List α) : xs.eraseDups.Nodup := by
  induction xs using List.reverseRecOn with
  | nil => exact List.nodup_nil
  | append_singleton xs x ih =>
      rw [eraseDups_concat]
      split
      · rwa [List.append_nil]
      · rename_i new
        refine List.nodup_append.mpr ⟨ih, List.nodup_singleton x, ?_⟩
        intro a ha b hb e
        rw [List.mem_singleton] at hb
        exact new (hb ▸ e ▸ List.mem_eraseDups.mp ha)

/-! ### Taking turns -/

/-- Beginnings (`true`) and ends (`false`) take turns, a beginning first.  The last one may be open. -/
inductive Alternating : List Bool → Prop where
  | nil : Alternating []
  | begun : Alternating [true]
  | ended {rest : List Bool} (h : Alternating rest) : Alternating (true :: false :: rest)

theorem alternating_singleton {b : Bool} : Alternating [b] ↔ b = true := by
  refine ⟨fun h => ?_, fun h => h ▸ .begun⟩
  cases h
  rfl

theorem alternating_cons_cons {b b' : Bool} {rest : List Bool} :
    Alternating (b :: b' :: rest) ↔ b = true ∧ b' = false ∧ Alternating rest := by
  refine ⟨fun h => ?_, fun ⟨hb, hb', h⟩ => hb ▸ hb' ▸ .ended h⟩
  cases h with
  | ended h => exact ⟨rfl, rfl, h⟩

/-- What follows is the opposite of what was last, as if an end came before everything. -/
theorem alternating_concat {b : Bool} :
    ∀ {bs : List Bool}, Alternating (bs ++ [b]) ↔ Alternating bs ∧ b = !bs.getLast?.getD false
  | [] => ⟨fun h => ⟨.nil, alternating_singleton.mp h⟩, fun h => alternating_singleton.mpr h.2⟩
  | [x] => by
      rw [List.singleton_append, alternating_cons_cons, alternating_singleton]
      refine ⟨?_, ?_⟩
      · rintro ⟨rfl, rfl, -⟩
        exact ⟨rfl, rfl⟩
      · rintro ⟨rfl, rfl⟩
        exact ⟨rfl, rfl, .nil⟩
  | x :: y :: rest => by
      have last : (x :: y :: rest).getLast? = some (rest.getLast?.getD y) := by
        rw [List.getLast?_cons_cons, List.getLast?_cons]
      rw [List.cons_append, List.cons_append, alternating_cons_cons, alternating_cons_cons,
        alternating_concat, last, Option.getD_some]
      refine ⟨?_, ?_⟩
      · rintro ⟨hx, rfl, hr, hb⟩
        exact ⟨⟨hx, rfl, hr⟩, hb⟩
      · rintro ⟨⟨hx, rfl, hr⟩, hb⟩
        exact ⟨hx, rfl, hr, hb⟩

theorem alternating_of_append {bs cs : List Bool} (h : Alternating (bs ++ cs)) :
    Alternating bs := by
  induction cs using List.reverseRecOn with
  | nil => rwa [List.append_nil] at h
  | append_singleton cs c ih =>
      rw [← List.append_assoc] at h
      exact ih (alternating_concat.mp h).1

/-- An end comes when what was last is a beginning. -/
theorem last_of_alternating {bs cs : List Bool} (h : Alternating (bs ++ false :: cs)) :
    bs.getLast? = some true := by
  have h' : Alternating (bs ++ [false]) := by
    rw [List.append_cons] at h
    exact alternating_of_append h
  have last := (alternating_concat.mp h').2
  cases hb : bs.getLast? with
  | none => rw [hb] at last; cases last
  | some b =>
      rw [hb] at last
      cases b with
      | true => rfl
      | false => cases last

end Metering.History
