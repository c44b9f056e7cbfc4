/-!
# Proofs — Attempt

Steps that may fail.  They succeed when all of them do: one after another (`bind_eq_ok_iff`), with something made of
the result (`map_eq_ok_iff`) or of the failure (`mapError_eq_ok_iff`), and for each element of a list (`mapM_map`, and
`mapM_eq_some_iff` for steps that may have no result).
-/

namespace Metering

variable {ε ε' α β : Type}

/-- Steps of which any may fail succeed when all do. -/
theorem bind_eq_ok_iff {x : Except ε α} {f : α → Except ε β} {b : β} :
    (x >>= f) = .ok b ↔ ∃ a, x = .ok a ∧ f a = .ok b := by
  cases x with
  | error => exact ⟨fun h => (by cases h), fun ⟨_, h, _⟩ => (by cases h)⟩
  | ok a => exact ⟨fun h => ⟨a, rfl, h⟩, fun ⟨_, same, h⟩ => (by cases same; exact h)⟩

theorem bind_ok (a : α) (f : α → Except ε β) : (Except.ok a >>= f) = f a := rfl

theorem map_eq_ok_iff {x : Except ε α} {f : α → β} {b : β} :
    x.map f = .ok b ↔ ∃ a, x = .ok a ∧ f a = b := by
  cases x with
  | error => exact ⟨fun h => (by cases h), fun ⟨_, h, _⟩ => (by cases h)⟩
  | ok a => exact ⟨fun h => ⟨a, rfl, by cases h; rfl⟩, fun ⟨_, same, h⟩ => (by cases same; cases h; rfl)⟩

theorem mapError_eq_ok_iff {x : Except ε α} {f : ε → ε'} {a : α} :
    x.mapError f = .ok a ↔ x = .ok a := by
  cases x with
  | error => exact ⟨fun h => (by cases h), fun h => (by cases h)⟩
  | ok => exact ⟨fun h => (by cases h; rfl), fun h => (by cases h; rfl)⟩

/-- What is written element by element is read element by element. -/
theorem mapM_map {read : β → Except ε α} {write : α → β} (h : ∀ a, read (write a) = .ok a)
    (as : List α) : (as.map write).mapM read = .ok as := by
  induction as with
  | nil => rfl
  | cons a as ih =>
      rw [List.map_cons, List.mapM_cons]
      exact bind_eq_ok_iff.mpr ⟨a, h a, bind_eq_ok_iff.mpr ⟨as, ih, rfl⟩⟩

/-- Elements are all read when each of them is. -/
theorem mapM_eq_some_iff {f : α → Option β} {as : List α} {bs : List β} :
    as.mapM f = some bs ↔ as.map f = bs.map some := by
  induction as generalizing bs with
  | nil => cases bs <;> simp
  | cons a as ih =>
      rw [List.mapM_cons, List.map_cons, eq_comm (a := _ :: _), List.map_eq_cons_iff]
      simp only [Option.bind_eq_bind, Option.bind_eq_some_iff, ih, Option.pure_def,
        Option.some.injEq]
      refine ⟨?_, ?_⟩
      · rintro ⟨b, hb, bs, hbs, rfl⟩
        exact ⟨b, bs, rfl, hb.symm, hbs.symm⟩
      · rintro ⟨b, bs, rfl, hb, hbs⟩
        exact ⟨b, hb.symm, bs, hbs.symm, rfl⟩

end Metering
