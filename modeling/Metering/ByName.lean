/-!
# ByName

Values under names, kept in the order of the names: character by character by code point, which is also the order
of their bytes in UTF-8.  A name has one value (`sorted_insert` keeps the names strictly ascending), and the last
one set counts (`get?_insert`).
-/

namespace Metering.ByName

variable {α : Type}

/-- Sets `name` to `value`, in its place among the names. -/
def insert (name : String) (value : α) : List (String × α) → List (String × α)
  | [] => [(name, value)]
  | (n, v) :: rest =>
      if name < n then (name, value) :: (n, v) :: rest
      else if name = n then (name, value) :: rest
      else (n, v) :: insert name value rest

/-- The members of a list in the order of their names, the last one for each name. -/
def ofList (members : List (String × α)) : List (String × α) :=
  members.foldl (fun sorted m => insert m.1 m.2 sorted) []

/-- The value under a name. -/
def get? (name : String) : List (String × α) → Option α
  | [] => none
  | (n, v) :: rest => if n = name then some v else get? name rest

/-- Names strictly ascend. -/
def Sorted (members : List (String × α)) : Prop :=
  members.Pairwise fun a b => a.1 < b.1

theorem mem_insert_fst {name : String} {value : α} {members : List (String × α)} {m : String × α}
    (h : m ∈ insert name value members) : m.1 = name ∨ m ∈ members := by
  induction members with
  | nil => simp [insert] at h; simp [h]
  | cons e rest ih =>
      obtain ⟨n, v⟩ := e
      simp only [insert] at h
      split at h
      · rcases List.mem_cons.mp h with rfl | h
        · exact .inl rfl
        · exact .inr h
      · split at h
        · rcases List.mem_cons.mp h with rfl | h
          · exact .inl rfl
          · exact .inr (List.mem_cons_of_mem _ h)
        · rcases List.mem_cons.mp h with rfl | h
          · exact .inr List.mem_cons_self
          · exact (ih h).imp_right (List.mem_cons_of_mem _)

theorem sorted_insert (name : String) (value : α) {members : List (String × α)}
    (h : Sorted members) : Sorted (insert name value members) := by
  induction members with
  | nil => simp [insert, Sorted]
  | cons e rest ih =>
      obtain ⟨n, v⟩ := e
      obtain ⟨hn, hr⟩ := List.pairwise_cons.mp h
      simp only [insert]
      split
      · rename_i lt
        refine List.pairwise_cons.mpr ⟨fun m hm => ?_, h⟩
        rcases List.mem_cons.mp hm with rfl | hm
        · exact lt
        · exact String.lt_trans lt (hn m hm)
      · rename_i ge
        split
        · rename_i e
          subst e
          exact List.pairwise_cons.mpr ⟨hn, hr⟩
        · rename_i ne
          refine List.pairwise_cons.mpr ⟨fun m hm => ?_, ih hr⟩
          rcases mem_insert_fst hm with e | hm
          · rw [e]
            rcases Std.le_iff_lt_or_eq.mp (String.not_lt.mp ge) with lt | eq
            · exact lt
            · exact absurd eq.symm ne
          · exact hn m hm

theorem get?_insert (name name' : String) (value : α) {members : List (String × α)}
    (h : Sorted members) :
    get? name' (insert name value members) =
      if name = name' then some value else get? name' members := by
  induction members with
  | nil => rfl
  | cons e rest ih =>
      obtain ⟨n, v⟩ := e
      obtain ⟨-, hr⟩ := List.pairwise_cons.mp h
      simp only [insert]
      split
      · rfl
      · split
        · rename_i e
          subst e
          by_cases h' : name = name' <;> simp [get?, h']
        · rename_i ne
          by_cases h' : n = name'
          · subst h'
            simp [get?, ne]
          · simp [get?, h', ih hr]

theorem sorted_ofList (members : List (String × α)) : Sorted (ofList members) := by
  suffices ∀ acc : List (String × α), Sorted acc →
      Sorted (members.foldl (fun sorted m => insert m.1 m.2 sorted) acc) from
    this [] List.Pairwise.nil
  induction members with
  | nil => exact fun _ h => h
  | cons m rest ih => exact fun acc h => ih _ (sorted_insert m.1 m.2 h)

end Metering.ByName
