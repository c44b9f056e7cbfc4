import Mathlib.Data.List.Infix
import Mathlib.Data.List.Induction
import Metering.Attribute.Statistic
import Metering.ByName
import Metering.Proofs.Key

/-!
# Proofs — Attribute — Names

A name tells the statistic and the key that it was made of (`nameOf_injective`): no suffix ends in another one, so the
order in which suffixes are tried does not matter.  `candidates` is the inverse of `nameOf` but for the blank key,
whose names have no reading (`mem_candidates_iff`).

The last section says what an ordered list of names holds after all members were put into it.
-/

namespace Metering

namespace Statistic

/-! ### Names and their readings -/

/-- No suffix ends in another one. -/
theorem eq_of_suffix {s t : Statistic} : s.suffix.toList <:+ t.suffix.toList → s = t := by
  cases s <;> cases t <;> decide

/-- **A name determines its statistic and its key.** -/
theorem nameOf_injective {s t : Statistic} {k l : Key} (h : s.nameOf k = t.nameOf l) :
    s = t ∧ k = l := by
  have hl : k.text.toList ++ s.suffix.toList = l.text.toList ++ t.suffix.toList := by
    rw [← String.toList_append, ← String.toList_append]
    exact congrArg String.toList h
  have hs : s = t := by
    have ends : s.suffix.toList <:+ l.text.toList ++ t.suffix.toList := by
      rw [← hl]
      exact List.suffix_append _ _
    -- both suffixes end the name, so the shorter one ends the longer one
    rcases List.suffix_or_suffix_of_suffix ends (List.suffix_append _ _) with h | h
    · exact eq_of_suffix h
    · exact (eq_of_suffix h).symm
  subst hs
  exact ⟨rfl, Key.text_injective (String.toList_inj.mp (List.append_cancel_right hl))⟩

theorem mem_bySuffix (s : Statistic) : s ∈ bySuffix := by
  cases s <;> decide

/-- The readings of a name when suffixes are tried in that order. -/
def readings (order : List Statistic) (name : String) : List (Key × Statistic) :=
  order.filterMap fun s => (s.keyOf? name).map fun key => (key, s)

/-- The readings of a name are the statistics and keys that have it, blank keys apart. -/
theorem mem_readings_iff {order : List Statistic} {name : String} {k : Key} {s : Statistic} :
    (k, s) ∈ readings order name ↔ s ∈ order ∧ k ≠ Key.blank ∧ name = s.nameOf k := by
  rw [readings, List.mem_filterMap, ne_eq, ← Key.text_eq_empty_iff, ← ne_eq,
    ← keyOf?_eq_some_iff]
  refine ⟨?_, fun ⟨tried, hk⟩ => ⟨s, tried, by rw [hk]; rfl⟩⟩
  rintro ⟨t, tried, ht⟩
  obtain ⟨l, hl, e⟩ := Option.map_eq_some_iff.mp ht
  cases e
  exact ⟨tried, hl⟩

theorem mem_candidates_iff {name : String} {k : Key} {s : Statistic} :
    (k, s) ∈ candidates name ↔ k ≠ Key.blank ∧ name = s.nameOf k := by
  have tried : (k, s) ∈ candidates name ↔ s ∈ bySuffix ∧ k ≠ Key.blank ∧ name = s.nameOf k :=
    mem_readings_iff
  rw [tried, and_iff_right (mem_bySuffix s)]

end Statistic

namespace ByName

variable {α : Type}

/-! ### What an ordered list holds -/

theorem ofList_concat (members : List (String × α)) (m : String × α) :
    ofList (members ++ [m]) = insert m.1 m.2 (ofList members) := by
  rw [ofList, List.foldl_append]
  rfl

/-- The value of a name is that of a member. -/
theorem mem_of_get?_ofList {members : List (String × α)} {name : String} {value : α}
    (h : get? name (ofList members) = some value) : (name, value) ∈ members := by
  induction members using List.reverseRecOn with
  | nil => cases h
  | append_singleton members m ih =>
      rw [ofList_concat, get?_insert _ _ _ (sorted_ofList members)] at h
      split at h
      · rename_i hn
        cases Option.some.inj h
        exact List.mem_append_right _ (by simp [← hn])
      · exact List.mem_append_left _ (ih h)

theorem get?_isSome_iff {members : List (String × α)} {name : String} :
    (get? name members).isSome = true ↔ name ∈ members.map (·.1) := by
  induction members with
  | nil => simp [get?]
  | cons m rest ih =>
      obtain ⟨n, v⟩ := m
      by_cases hn : n = name
      · simp [get?, hn]
      · simp only [get?, hn, if_false, ih, List.map_cons, List.mem_cons, Ne.symm hn, false_or]

/-- Each name of a member has a value. -/
theorem get?_ofList_isSome_iff {members : List (String × α)} {name : String} :
    (get? name (ofList members)).isSome = true ↔ name ∈ members.map (·.1) := by
  induction members using List.reverseRecOn with
  | nil => simp [ofList, get?]
  | append_singleton members m ih =>
      rw [ofList_concat, get?_insert _ _ _ (sorted_ofList members), List.map_append,
        List.mem_append,
        ← ih, List.map_singleton, List.mem_singleton]
      by_cases hn : m.1 = name
      · simp [hn]
      · simp [hn, Ne.symm hn]

end ByName

end Metering
