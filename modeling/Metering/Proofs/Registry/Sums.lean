import Mathlib.Algebra.BigOperators.Group.List.Basic
import Mathlib.Algebra.Group.WithOne.Basic
import Mathlib.Data.UInt
import Metering.Registry.Race

/-!
# Proofs — Registry — Sums

Summaries of times add up as counters do: two of them make one, whose sum and number are those of both together and
whose extrema are the better ones of both, where there are any.  Taking in a time is adding the summary of that time
alone (`record_eq_add`).

What a table holds for a key is then a sum, empty as long as the key has no entry (`Table.held`).  Whether an entry is
made, added to or found there, the table changes by one addend at one key (`held_addTo`, `held_ensure`), and what many
additions leave does not depend on their order (`get?_addAll_of_perm`).
-/

namespace Metering

/-! ### Summaries -/

namespace Timing

/-- The lesser of two words. -/
def lesser (a b : UInt64) : UInt64 := if b < a then b else a

/-- The greater of two words. -/
def greater (a b : UInt64) : UInt64 := if b > a then b else a

theorem toNat_lesser (a b : UInt64) : (lesser a b).toNat = Min.min a.toNat b.toNat := by
  unfold lesser
  split <;> rename_i h <;> rw [UInt64.lt_iff_toNat_lt] at h <;> omega

theorem toNat_greater (a b : UInt64) : (greater a b).toNat = Max.max a.toNat b.toNat := by
  unfold greater
  split <;> rename_i h <;> rw [gt_iff_lt, UInt64.lt_iff_toNat_lt] at h <;> omega

instance : Std.Associative lesser where
  assoc a b c := by
    rw [← UInt64.toNat_inj]
    simp only [toNat_lesser]
    exact Nat.min_assoc ..

instance : Std.Commutative lesser where
  comm a b := by
    rw [← UInt64.toNat_inj, toNat_lesser, toNat_lesser]
    exact Nat.min_comm ..

instance : Std.Associative greater where
  assoc a b c := by
    rw [← UInt64.toNat_inj]
    simp only [toNat_greater]
    exact Nat.max_assoc ..

instance : Std.Commutative greater where
  comm a b := by
    rw [← UInt64.toNat_inj, toNat_greater, toNat_greater]
    exact Nat.max_comm ..

instance : Zero Timing := ⟨{}⟩

instance : Add Timing where
  add t u :=
    { sum := t.sum + u.sum
      completed := t.completed + u.completed
      min := t.min.merge lesser u.min
      max := t.max.merge greater u.max }

theorem zero_def : (0 : Timing) = {} := rfl

theorem add_def (t u : Timing) :
    t + u = { sum := t.sum + u.sum
              completed := t.completed + u.completed
              min := t.min.merge lesser u.min
              max := t.max.merge greater u.max } := rfl

instance : AddCommMonoid Timing where
  add_assoc t u v := by
    simp only [add_def, mk.injEq]
    exact ⟨UInt64.add_assoc .., UInt64.add_assoc .., Std.Associative.assoc t.min u.min v.min,
      Std.Associative.assoc t.max u.max v.max⟩
  add_comm t u := by
    simp only [add_def, mk.injEq]
    exact ⟨UInt64.add_comm .., UInt64.add_comm .., Std.Commutative.comm t.min u.min,
      Std.Commutative.comm t.max u.max⟩
  zero_add t := by simp [add_def, zero_def]
  add_zero t := by simp [add_def, zero_def]
  nsmul := nsmulRec

/-- A sample takes the place of a minimum when it is the lesser of the two. -/
theorem extremum_lt (held : Option UInt64) (s : UInt64) :
    extremum (· < ·) held s = held.merge lesser (some s) := by
  cases held with
  | none => rfl
  | some m =>
      simp only [extremum, decide_eq_true_eq, Option.merge_some_some, lesser]
      split <;> rfl

/-- And of a maximum when it is the greater one. -/
theorem extremum_gt (held : Option UInt64) (s : UInt64) :
    extremum (· > ·) held s = held.merge greater (some s) := by
  cases held with
  | none => rfl
  | some m =>
      simp only [extremum, decide_eq_true_eq, Option.merge_some_some, greater]
      split <;> rfl

/-- **One time.**  Taking it in is adding its own summary. -/
theorem record_eq_add (t : Timing) (elapsed : UInt64) (trackMin trackMax : Bool) :
    t.record elapsed trackMin trackMax = t + ({} : Timing).record elapsed trackMin trackMax := by
  simp only [record, add_def, extremum_lt, extremum_gt, mk.injEq]
  refine ⟨by simp, by simp, ?_, ?_⟩
  · cases trackMin <;> simp
  · cases trackMax <;> simp

end Timing

/-- The summary of one time. -/
def Timings.Sample.summary (s : Timings.Sample) : Timing :=
  ({} : Timing).record s.elapsed s.trackMin s.trackMax

/-! ### What a table holds for a key -/

namespace Table

section
variable {κ α : Type} [DecidableEq κ]

/-- What a table holds for a key, as a sum that may be empty. -/
def held (t : Table κ α) (k : κ) : WithZero α := t.get? k

theorem held_insert (t : Table κ α) (k k' : κ) (v : α) :
    (t.insert k v).held k' = if k = k' then (v : WithZero α) else t.held k' :=
  t.get?_insert k k' v

end

section
variable {κ α : Type} [DecidableEq κ] [AddCommMonoid α]

/-- Adds to what a table holds for a key, which is made if it is missing. -/
def addTo (t : Table κ α) (k : κ) (v : α) : Table κ α := t.insert k ((t.get? k).getD 0 + v)

/-- **One addition** adds one addend at one key. -/
theorem held_addTo (t : Table κ α) (k k' : κ) (v : α) :
    (t.addTo k v).held k' = t.held k' + if k = k' then (v : WithZero α) else 0 := by
  rw [addTo, held_insert]
  by_cases h : k = k'
  · subst h
    rw [if_pos rfl, if_pos rfl, held]
    cases t.get? k with
    | none => simp; rfl
    | some u => rfl
  · rw [if_neg h, if_neg h, add_zero]

/-- So does making an entry that is missing: it adds nothing to it. -/
theorem held_ensure (t : Table κ α) (k k' : κ) :
    (if t.contains k then t else t.insert k 0).held k' =
      t.held k' + if k = k' then ((0 : α) : WithZero α) else 0 := by
  cases hg : t.get? k with
  | none =>
      rw [contains, hg, Option.isSome_none, if_neg Bool.false_ne_true, held_insert]
      by_cases h : k = k'
      · subst h
        rw [if_pos rfl, if_pos rfl, held, hg]
        exact (zero_add _).symm
      · rw [if_neg h, if_neg h, add_zero]
  | some v =>
      rw [contains, hg, Option.isSome_some, if_pos rfl]
      by_cases h : k = k'
      · subst h
        rw [if_pos rfl, held, hg]
        exact congrArg some (add_zero v).symm
      · rw [if_neg h, add_zero]

end

end Table

/-! ### Many additions -/

section
variable {κ α : Type} [DecidableEq κ] [AddCommMonoid α]

/-- A table after many additions. -/
def Table.addAll (t : Table κ α) (addends : List (κ × α)) : Table κ α :=
  addends.foldl (fun t a => t.addTo a.1 a.2) t

/-- **Many additions** add up, key by key. -/
theorem Table.held_addAll (t : Table κ α) (addends : List (κ × α)) (k : κ) :
    (t.addAll addends).held k =
      t.held k + (addends.map fun a => if a.1 = k then (a.2 : WithZero α) else 0).sum := by
  induction addends generalizing t with
  | nil => simp [addAll]
  | cons a rest ih =>
      rw [addAll, List.foldl_cons, ← addAll, ih, held_addTo, List.map_cons, List.sum_cons, add_assoc]

/-- Their order does not matter, nor does it how the table is laid out. -/
theorem Table.get?_addAll_of_perm {t t' : Table κ α} {addends addends' : List (κ × α)}
    (h : addends.Perm addends') {k : κ} (ht : t.get? k = t'.get? k) :
    (t.addAll addends).get? k = (t'.addAll addends').get? k := by
  have sums := (h.map fun a => if a.1 = k then (a.2 : WithZero α) else 0).sum_eq
  have first : t.held k = t'.held k := ht
  change (t.addAll addends).held k = (t'.addAll addends').held k
  rw [held_addAll, held_addAll, sums, first]

end

/-- Counters after many additions. -/
def Counters.addAll (c : Counters) (additions : List (Key × UInt64)) : Counters :=
  additions.foldl (fun c a => c.add a.1 a.2) c

theorem Counters.addAll_eq (c : Counters) (additions : List (Key × UInt64)) :
    c.addAll additions = Table.addAll c additions := rfl

namespace Timings

/-- Summaries after many times. -/
def observeAll (t : Timings) (samples : List Sample) : Timings :=
  samples.foldl (fun t s => t.observe s.key s.elapsed s.trackMin s.trackMax) t

theorem observe_eq_addTo (t : Timings) (s : Sample) :
    t.observe s.key s.elapsed s.trackMin s.trackMax = t.addTo s.key s.summary :=
  congrArg (t.insert s.key) (Timing.record_eq_add ..)

theorem observeAll_eq (t : Timings) (samples : List Sample) :
    t.observeAll samples = Table.addAll t (samples.map fun s => (s.key, s.summary)) := by
  simp only [observeAll, observe_eq_addTo, Table.addAll, List.foldl_map]

end Timings

end Metering
