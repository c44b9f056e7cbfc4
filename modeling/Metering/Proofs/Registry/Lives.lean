import Metering.Proofs.Registry.Account
import Metering.Proofs.Registry.Steps

/-!
# Proofs — Registry — Lives

Lives and the instances that have ended as an account (`lifeAccount`): a life begins when the creation of its object is
noted, and ends with the object.  An instance may also end on its own, where lives are not timed.  The instances that
have begun are counted apart from them (`instances_of_reaches`).
-/

namespace Metering.Registry

theorem total_increment (c : Counters) (k k' : Key) :
    (c.increment k).total k' = c.total k' + if k = k' then 1 else 0 := by
  rw [Counters.increment, Counters.total_add]
  by_cases h : k = k' <;> simp [h]

theorem contains_increment (c : Counters) (k k' : Key) :
    (c.increment k).contains k' = (c.contains k' || decide (k = k')) := by
  rw [Counters.increment, Counters.contains_add, Bool.or_comm]

/-- The life that an operation begins. -/
def lifeBegun : Operation → Option UInt64
  | .recordCreation _ id => some id
  | _ => none

/-- The life that an operation ends. -/
def lifeEnded : Operation → Option UInt64
  | .recordLifetime _ id => some id
  | _ => none

/-- The key of which an operation ends an instance. -/
def instanceEnded : Operation → Option Key
  | .recordLifetime key _ | .decrementLive key => some key
  | _ => none

/-- What ends no instance ends no life. -/
theorem lifeEnded_of_instanceEnded {op : Operation} (h : instanceEnded op = none) :
    lifeEnded op = none := by
  cases op with
  | recordLifetime => cases h
  | _ => rfl

/-- What an operation that ends no instance does to the lives: it may begin one. -/
theorem apply_of_instanceEnded_eq_none (r : Registry) (now : UInt64) {op : Operation}
    (h : instanceEnded op = none) :
    (r.apply now op).2.births =
        (match lifeBegun op with
          | some id => (r.births.start id now).2
          | none => r.births) ∧
      (r.apply now op).2.finished = r.finished := by
  cases op with
  | recordLifetime | decrementLive => cases h
  | configure options =>
      obtain ⟨fixed, step⟩ := r.apply_configure now options
      rw [step]
      exact ⟨rfl, rfl⟩
  | recordCallEnd key id =>
      obtain ⟨time, step⟩ := r.apply_recordCallEnd now key id
      rw [step]
      exact ⟨rfl, rfl⟩
  | incrementExceptionExits key id =>
      obtain ⟨time, step⟩ := r.apply_incrementExceptionExits now key id
      rw [step]
      exact ⟨rfl, rfl⟩
  | _ => exact ⟨rfl, rfl⟩

/-- Lives, with how many instances of a key have ended.  An instance may also end without its life being timed. -/
def lifeAccount : Account UInt64 where
  pending := births
  total r := r.finished.total
  holds r := r.finished.contains
  begins := lifeBegun
  ends := lifeEnded
  counted := instanceEnded
  apart op := by cases op <;> simp [lifeBegun, lifeEnded]
  neutral _ := ⟨rfl, rfl, rfl⟩
  contains_empty _ := rfl
  total_empty _ := rfl
  holds_empty _ := rfl
  contains_apply r now op id := by
    cases he : instanceEnded op with
    | none =>
        rw [(r.apply_of_instanceEnded_eq_none now he).1, lifeEnded_of_instanceEnded he,
          if_neg (by simp)]
        cases hb : lifeBegun op with
        | none => simp
        | some id' => rw [contains_start]; simp
    | some key =>
        cases op with
        | recordLifetime key id' =>
            obtain ⟨lifetimes, step⟩ := r.apply_recordLifetime now key id'
            rw [step, contains_take]
            simp [lifeEnded, lifeBegun]
        | decrementLive => rfl
        | _ => cases he
  total_apply r now op k := by
    cases he : instanceEnded op with
    | none => simp [(r.apply_of_instanceEnded_eq_none now he).2]
    | some key =>
        cases op with
        | recordLifetime key id =>
            cases he
            obtain ⟨lifetimes, step⟩ := r.apply_recordLifetime now key id
            rw [step]
            by_cases found : r.births.contains id <;> simp [found, total_increment, lifeEnded]
        | decrementLive key =>
            cases he
            change Counters.total (r.finished.increment key) k = _
            simp [total_increment, lifeEnded]
        | _ => cases he
  holds_apply r now op k := by
    cases he : instanceEnded op with
    | none => simp [(r.apply_of_instanceEnded_eq_none now he).2]
    | some key =>
        cases op with
        | recordLifetime key id =>
            cases he
            obtain ⟨lifetimes, step⟩ := r.apply_recordLifetime now key id
            rw [step]
            by_cases found : r.births.contains id <;> simp [found, contains_increment, lifeEnded]
        | decrementLive key =>
            cases he
            change (r.finished.increment key).contains k = _
            simp [contains_increment, lifeEnded]
        | _ => cases he

theorem mark_lifeAccount (id : UInt64) (op : Operation) :
    lifeAccount.mark id op =
      if lifeEnded op = some id then some false
      else if lifeBegun op = some id then some true else none :=
  rfl

/-! ### Instances -/

/-- The key of which an operation counts an instance. -/
def instanceBegun : Operation → Option Key
  | .incrementInstances key => some key
  | _ => none

theorem instances_apply (r : Registry) (now : UInt64) (op : Operation) :
    (r.apply now op).2.instances =
      match instanceBegun op with
      | some key => r.instances.increment key
      | none => r.instances := by
  cases op with
  | configure options =>
      obtain ⟨fixed, step⟩ := r.apply_configure now options
      rw [step]
      rfl
  | recordLifetime key id =>
      obtain ⟨lifetimes, step⟩ := r.apply_recordLifetime now key id
      rw [step]
      rfl
  | recordCallEnd key id =>
      obtain ⟨time, step⟩ := r.apply_recordCallEnd now key id
      rw [step]
      rfl
  | incrementExceptionExits key id =>
      obtain ⟨time, step⟩ := r.apply_incrementExceptionExits now key id
      rw [step]
      rfl
  | _ => rfl

/-- The instances of a key are the operations that count one, and a key is held when there is such an operation. -/
theorem instances_of_reaches {ops : List Operation} {r : Registry} (h : Reaches ops r) (k : Key) :
    r.instances.total k = .ofNat (ops.countP fun op => instanceBegun op = some k) ∧
      r.instances.contains k = decide (0 < ops.countP fun op => instanceBegun op = some k) := by
  induction h with
  | empty => exact ⟨rfl, rfl⟩
  | @configure o _ r _ ih =>
      have same : (r.configure o).2.instances = r.instances := r.instances_apply 0 (.configure o)
      rw [same]
      exact ih
  | @apply now op _ r _ ih =>
      rw [instances_apply, List.countP_append, UInt64.ofNat_add, ← ih.1, List.countP_singleton]
      cases hb : instanceBegun op with
      | none => exact ⟨by simp, by simpa using ih.2⟩
      | some key =>
          dsimp only
          rw [total_increment, contains_increment, ih.2]
          by_cases hk : key = k <;> simp [hk]

end Metering.Registry
