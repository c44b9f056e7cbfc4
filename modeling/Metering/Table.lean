/-!
# Table

Finite maps, as lists of pairs with distinct keys in the order in which the keys came.  `get?` is the view: each
operation has one equation through it (`get?_insert`, `get?_erase`), and a key is held exactly when it has a value
(`mem_keys_iff`).
-/

namespace Metering

/-- A finite map from `κ` to `α`; no two entries have the same key. -/
structure Table (κ α : Type) where
  entries : List (κ × α)
  distinct : (entries.map Prod.fst).Nodup
deriving DecidableEq

namespace Table

variable {κ α : Type} [DecidableEq κ]

/-- The value of the first entry for `k`. -/
def find (k : κ) : List (κ × α) → Option α
  | [] => none
  | (k', v) :: es => if k' = k then some v else find k es

/-- The entries with `k` set to `v`: in its place if it has one, else at the end. -/
def put (k : κ) (v : α) : List (κ × α) → List (κ × α)
  | [] => [(k, v)]
  | (k', v') :: es => if k' = k then (k', v) :: es else (k', v') :: put k v es

theorem map_fst_put (k : κ) (v : α) (es : List (κ × α)) :
    (put k v es).map Prod.fst =
      if k ∈ es.map Prod.fst then es.map Prod.fst else es.map Prod.fst ++ [k] := by
  induction es with
  | nil => rfl
  | cons e es ih =>
      obtain ⟨k', v'⟩ := e
      by_cases h : k' = k
      · simp [put, h]
      · simp only [put, h, if_false, List.map_cons, ih, List.mem_cons, Ne.symm h, false_or]
        split <;> rfl

theorem nodup_put (k : κ) (v : α) {es : List (κ × α)} (h : (es.map Prod.fst).Nodup) :
    ((put k v es).map Prod.fst).Nodup := by
  rw [map_fst_put]
  split
  · exact h
  · rename_i hk
    refine List.nodup_append.mpr ⟨h, by simp, ?_⟩
    intro a ha b hb e
    rw [List.mem_singleton] at hb
    exact hk (hb ▸ e ▸ ha)

theorem nodup_filter_ne (k : κ) {es : List (κ × α)} (h : (es.map Prod.fst).Nodup) :
    ((es.filter fun e => e.1 ≠ k).map Prod.fst).Nodup :=
  h.sublist (List.filter_sublist.map Prod.fst)

/-! ### The operations -/

def empty : Table κ α := ⟨[], List.nodup_nil⟩

instance : Inhabited (Table κ α) := ⟨empty⟩

def get? (t : Table κ α) (k : κ) : Option α := find k t.entries

def contains (t : Table κ α) (k : κ) : Bool := (t.get? k).isSome

def insert (t : Table κ α) (k : κ) (v : α) : Table κ α :=
  ⟨put k v t.entries, nodup_put k v t.distinct⟩

def erase (t : Table κ α) (k : κ) : Table κ α :=
  ⟨t.entries.filter fun e => e.1 ≠ k, nodup_filter_ne k t.distinct⟩

/-- The keys, oldest first. -/
def keys (t : Table κ α) : List κ := t.entries.map Prod.fst

def size (t : Table κ α) : Nat := t.entries.length

/-! ### The operations through `get?` -/

@[simp] theorem get?_empty (k : κ) : (empty : Table κ α).get? k = none := rfl

theorem find_put (k k' : κ) (v : α) (es : List (κ × α)) :
    find k' (put k v es) = if k = k' then some v else find k' es := by
  induction es with
  | nil => rfl
  | cons e es ih =>
      obtain ⟨a, b⟩ := e
      by_cases h : a = k
      · subst h
        by_cases h' : a = k' <;> simp [put, find, h']
      · by_cases h' : a = k'
        · subst h'
          simp [put, find, h, Ne.symm h]
        · simp [put, find, h, h', ih]

theorem get?_insert (t : Table κ α) (k k' : κ) (v : α) :
    (t.insert k v).get? k' = if k = k' then some v else t.get? k' :=
  find_put k k' v t.entries

@[simp] theorem get?_insert_self (t : Table κ α) (k : κ) (v : α) :
    (t.insert k v).get? k = some v := by
  simp [get?_insert]

theorem get?_insert_of_ne (t : Table κ α) {k k' : κ} (v : α) (h : k ≠ k') :
    (t.insert k v).get? k' = t.get? k' := by
  simp [get?_insert, h]

theorem find_filter_ne (k k' : κ) (es : List (κ × α)) :
    find k' (es.filter fun e => e.1 ≠ k) = if k = k' then none else find k' es := by
  induction es with
  | nil => simp [find]
  | cons e es ih =>
      obtain ⟨a, b⟩ := e
      by_cases h : a = k
      · subst h
        by_cases h' : a = k' <;> simp_all [find]
      · by_cases h' : a = k'
        · subst h'
          simp [find, h, Ne.symm h]
        · simp_all [find]

theorem get?_erase (t : Table κ α) (k k' : κ) :
    (t.erase k).get? k' = if k = k' then none else t.get? k' :=
  find_filter_ne k k' t.entries

@[simp] theorem get?_erase_self (t : Table κ α) (k : κ) : (t.erase k).get? k = none := by
  simp [get?_erase]

theorem get?_erase_of_ne (t : Table κ α) {k k' : κ} (h : k ≠ k') :
    (t.erase k).get? k' = t.get? k' := by
  simp [get?_erase, h]

theorem find_isSome_iff {k : κ} {es : List (κ × α)} :
    (find k es).isSome = true ↔ k ∈ es.map Prod.fst := by
  induction es with
  | nil => simp [find]
  | cons e es ih =>
      obtain ⟨a, b⟩ := e
      by_cases h : a = k
      · simp [find, h]
      · simp only [find, h, if_false, ih, List.map_cons, List.mem_cons, Ne.symm h, false_or]

theorem mem_keys_iff {t : Table κ α} {k : κ} : k ∈ t.keys ↔ t.contains k = true :=
  find_isSome_iff.symm

/-- Erasing a key that has no value changes nothing. -/
theorem erase_of_get?_eq_none {t : Table κ α} {k : κ} (h : t.get? k = none) : t.erase k = t := by
  have absent : k ∉ t.keys := by
    rw [mem_keys_iff, contains, h]
    exact Bool.false_ne_true
  have kept : ∀ e ∈ t.entries, decide (e.1 ≠ k) = true := by
    intro e mem
    exact decide_eq_true fun same => absent (same ▸ List.mem_map_of_mem mem)
  obtain ⟨entries, distinct⟩ := t
  simp only [erase, List.filter_eq_self.mpr kept]

omit [DecidableEq κ] in
theorem nodup_keys (t : Table κ α) : t.keys.Nodup := t.distinct

omit [DecidableEq κ] in
theorem length_keys (t : Table κ α) : t.keys.length = t.size := by
  simp [keys, size]

/-- Setting a key keeps the order of the others and puts a new one last. -/
theorem keys_insert (t : Table κ α) (k : κ) (v : α) :
    (t.insert k v).keys = if k ∈ t.keys then t.keys else t.keys ++ [k] :=
  map_fst_put k v t.entries

end Table

end Metering
