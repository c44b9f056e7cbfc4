import Metering.Proofs.History
import Metering.Registry.History

/-!
# Proofs — Registry — Account

An account is one kind of start that waits in a registry, with the total by key that grows when such a start is
completed.  It says of each operation which start it begins, which it ends, and for which key it then counts; its laws
say what one operation does to the starts that wait and to the totals.  There are two: calls with their times, and
lives with the instances that have ended.

What operations do to a new registry follows by induction over them (`Reaches`).

* `contains_of_reaches`: a start waits when the last that the operations say of it is that it begins.
* `total_of_reaches`, `holds_of_reaches`: the total is the number of operations that count and find the start they end.
* `size_of_reaches`: as many starts wait as are open.

Where beginnings and ends of each start take turns, every end finds its start (`settled_of_alternating`), and what is
open and what has ended has begun (`length_opened`).
-/

namespace Metering

/-- A table has as many entries as there are keys in a list of exactly its keys. -/
theorem Table.size_eq_length {κ α : Type} [DecidableEq κ] {t : Table κ α} {ks : List κ}
    (hn : ks.Nodup) (h : ∀ k, k ∈ ks ↔ t.contains k = true) : t.size = ks.length := by
  have same : t.keys.Perm ks :=
    (List.perm_ext_iff_of_nodup t.nodup_keys hn).mpr fun k => Table.mem_keys_iff.trans (h k).symm
  rw [← t.length_keys, same.length_eq]

namespace Registry
open History

theorem contains_take {κ : Type} [DecidableEq κ] (p : Pending κ) (c c' : κ) :
    (p.take c).2.contains c' = if c = c' then false else p.contains c' := by
  rw [Table.contains, Pending.get?_take]
  split <;> rfl

theorem contains_start {κ : Type} [DecidableEq κ] (p : Pending κ) (c c' : κ) (reading : UInt64) :
    (p.start c reading).2.contains c' = if c = c' then true else p.contains c' := by
  rw [Pending.start, Table.contains, Table.get?_insert]
  split <;> rfl

/-- A new registry is brought to `r` by operations, at any readings of the clock.  Options may be fixed at any time. -/
inductive Reaches : List Operation → Registry → Prop where
  | empty : Reaches [] empty
  | configure (options : RecordOptions) {ops : List Operation} {r : Registry} (h : Reaches ops r) :
      Reaches ops (r.configure options).2
  | apply (now : UInt64) (op : Operation) {ops : List Operation} {r : Registry}
      (h : Reaches ops r) : Reaches (ops ++ [op]) (r.apply now op).2

/-- One kind of start, and the totals that grow when such a start is completed. -/
structure Account (κ : Type) [DecidableEq κ] where
  /-- The starts that wait. -/
  pending : Registry → Pending κ
  total : Registry → Key → UInt64
  /-- Whether a key has a total. -/
  holds : Registry → Key → Bool
  /-- The start that an operation begins. -/
  begins : Operation → Option κ
  /-- The start that an operation ends. -/
  ends : Operation → Option κ
  /-- The key for which an operation counts if the start that it ends is there. -/
  counted : Operation → Option Key
  apart : ∀ op, begins op = none ∨ ends op = none
  neutral : ∀ o, begins (.configure o) = none ∧ ends (.configure o) = none ∧
    counted (.configure o) = none
  contains_empty : ∀ c, (pending empty).contains c = false
  total_empty : ∀ k, total empty k = 0
  holds_empty : ∀ k, holds empty k = false
  contains_apply : ∀ r now op c, (pending (r.apply now op).2).contains c =
    if ends op = some c then false else if begins op = some c then true else (pending r).contains c
  total_apply : ∀ r now op k, total (r.apply now op).2 k =
    total r k + if counted op = some k ∧ (ends op).all (pending r).contains then 1 else 0
  holds_apply : ∀ r now op k, holds (r.apply now op).2 k =
    (holds r k || decide (counted op = some k ∧ (ends op).all (pending r).contains))

namespace Account

variable {κ : Type} [DecidableEq κ] (a : Account κ)

/-! ### Reading a history -/

/-- What an operation says of a start: that it begins (`true`), that it ends (`false`), or nothing. -/
def mark (c : κ) (op : Operation) : Option Bool :=
  if a.ends op = some c then some false else if a.begins op = some c then some true else none

/-- What operations say of a start. -/
def marks (c : κ) (ops : List Operation) : List Bool := ops.filterMap (a.mark c)

/-- The last that operations say of a start is that it begins. -/
def isOpen (c : κ) (ops : List Operation) : Bool := (a.marks c ops).getLast?.getD false

/-- The starts that are open after operations. -/
def opened (ops : List Operation) : List κ :=
  (ops.filterMap a.begins).eraseDups.filter fun c => a.isOpen c ops

/-- An operation counts for a key, and the start that it ends is open after the operations before it. -/
def settles (k : Key) (before : List Operation) (op : Operation) : Bool :=
  a.counted op = some k ∧ (a.ends op).all fun c => a.isOpen c before

/-- How many operations count for a key and find the start that they end. -/
def settled (k : Key) (ops : List Operation) : Nat := (mapBefore (a.settles k) ops).count true

theorem marks_concat (c : κ) (ops : List Operation) (op : Operation) :
    a.marks c (ops ++ [op]) = a.marks c ops ++ (a.mark c op).toList := by
  rw [marks, List.filterMap_append, marks]
  cases h : a.mark c op <;> simp [h]

theorem isOpen_concat (c : κ) (ops : List Operation) (op : Operation) :
    a.isOpen c (ops ++ [op]) = (a.mark c op).getD (a.isOpen c ops) := by
  rw [isOpen, marks_concat]
  cases h : a.mark c op with
  | none => simp [isOpen]
  | some b => simp

theorem settled_concat (k : Key) (ops : List Operation) (op : Operation) :
    a.settled k (ops ++ [op]) = a.settled k ops + if a.settles k ops op then 1 else 0 := by
  rw [settled, mapBefore_concat, List.count_append, settled]
  cases a.settles k ops op <;> rfl

/-- A start is open when it has begun and the last that is said of it is that it begins. -/
theorem mem_opened {c : κ} {ops : List Operation} : c ∈ a.opened ops ↔ a.isOpen c ops = true := by
  rw [opened, List.mem_filter, List.mem_eraseDups]
  refine ⟨And.right, fun h => ⟨?_, h⟩⟩
  have last : (a.marks c ops).getLast? = some true := by
    rw [isOpen] at h
    cases hl : (a.marks c ops).getLast? with
    | none => rw [hl] at h; cases h
    | some b => rw [hl] at h; exact congrArg some h
  obtain ⟨op, mem, hop⟩ := List.mem_filterMap.mp (List.mem_of_getLast? last)
  refine List.mem_filterMap.mpr ⟨op, mem, ?_⟩
  rw [mark] at hop
  split at hop
  · cases hop
  · split at hop
    · assumption
    · cases hop

theorem nodup_opened (ops : List Operation) : (a.opened ops).Nodup :=
  (nodup_eraseDups _).filter _

/-- Any list of what is open, each start once, is as good. -/
theorem perm_opened {ops : List Operation} {cs : List κ} (hn : cs.Nodup)
    (h : ∀ c, c ∈ cs ↔ a.isOpen c ops = true) : (a.opened ops).Perm cs :=
  (List.perm_ext_iff_of_nodup (a.nodup_opened ops) hn).mpr fun c => (a.mem_opened).trans (h c).symm

theorem alternating_left {before after : List Operation}
    (h : ∀ c, Alternating (a.marks c (before ++ after))) (c : κ) :
    Alternating (a.marks c before) := by
  have hc := h c
  rw [marks, List.filterMap_append] at hc
  exact alternating_of_append hc

theorem begins_of_ends {op : Operation} {c : κ} (h : a.ends op = some c) : a.begins op = none :=
  (a.apart op).resolve_right (by rw [h]; exact Option.some_ne_none c)

theorem ends_of_begins {op : Operation} {c : κ} (h : a.begins op = some c) : a.ends op = none :=
  (a.apart op).resolve_left (by rw [h]; exact Option.some_ne_none c)

/-- Where beginnings and ends of each start take turns, what ends is open. -/
theorem isOpen_of_ends {before after : List Operation} {op : Operation} {c : κ}
    (h : ∀ c, Alternating (a.marks c (before ++ op :: after))) (he : a.ends op = some c) :
    a.isOpen c before = true := by
  have hm : a.mark c op = some false := by rw [mark, if_pos he]
  have hc := h c
  rw [marks, List.filterMap_append, List.filterMap_cons_some hm] at hc
  rw [isOpen, marks, last_of_alternating hc, Option.getD_some]

/-- There every end finds its start. -/
theorem settled_of_alternating {ops : List Operation} (h : ∀ c, Alternating (a.marks c ops))
    (k : Key) : a.settled k ops = ops.countP fun op => a.counted op = some k := by
  induction ops using List.reverseRecOn with
  | nil => rfl
  | append_singleton ops op ih =>
      have finds : (a.ends op).all (fun c => a.isOpen c ops) = true := by
        cases he : a.ends op with
        | none => rfl
        | some c => exact a.isOpen_of_ends h he
      rw [settled_concat, ih (a.alternating_left h), List.countP_append, settles, finds]
      simp

/-- Where nothing begins, no end finds its start. -/
theorem settled_eq_zero {ops : List Operation} (none_begins : ops.filterMap a.begins = [])
    {k : Key} (ended : ∀ op ∈ ops, a.counted op = some k → a.ends op ≠ none) :
    a.settled k ops = 0 := by
  induction ops using List.reverseRecOn with
  | nil => rfl
  | append_singleton ops op ih =>
      rw [List.filterMap_append, List.append_eq_nil_iff] at none_begins
      -- nothing is open before the end, since what is open has begun
      have closed (c : κ) : a.isOpen c ops = false := by
        refine Bool.eq_false_iff.mpr fun h => ?_
        have mem := a.mem_opened.mpr h
        rw [opened, none_begins.1] at mem
        cases mem
      have misses : a.settles k ops op = false := by
        refine decide_eq_false fun h => ?_
        obtain ⟨c, hc⟩ := Option.ne_none_iff_exists'.mp
          (ended op (List.mem_append_right _ (List.mem_singleton_self op)) h.1)
        rw [hc, Option.all_some, closed c] at h
        cases h.2
      rw [settled_concat, misses,
        ih none_begins.1 fun op hop => ended op (List.mem_append_left _ hop)]
      rfl

/-- Where beginnings and ends of each start take turns, what begins is not open. -/
theorem not_isOpen_of_begins {before after : List Operation} {op : Operation} {c : κ}
    (h : ∀ c, Alternating (a.marks c (before ++ op :: after))) (hb : a.begins op = some c) :
    a.isOpen c before = false := by
  have hm : a.mark c op = some true := by
    rw [mark, a.ends_of_begins hb, if_neg (Option.some_ne_none c).symm, if_pos hb]
  rw [List.append_cons] at h
  have hc := a.alternating_left h c
  rw [marks_concat, hm, Option.toList_some, alternating_concat] at hc
  exact (Bool.not_eq_true' _).mp hc.2.symm

/-- An end takes its start away from what is open. -/
theorem opened_of_ends {ops : List Operation} {op : Operation} {c : κ} (he : a.ends op = some c)
    (hc : a.isOpen c ops = true) : (a.opened ops).Perm (c :: a.opened (ops ++ [op])) := by
  have hb := a.begins_of_ends he
  refine a.perm_opened (List.nodup_cons.mpr ⟨?_, a.nodup_opened _⟩) fun c' => ?_
  · rw [mem_opened, isOpen_concat, mark, if_pos he]
    exact Bool.false_ne_true
  · rw [List.mem_cons, mem_opened, isOpen_concat, mark, he, hb]
    by_cases e : c = c'
    · subst e
      simp [hc]
    · simp [e, Ne.symm e]

/-- A beginning adds its start to what is open. -/
theorem opened_of_begins {ops : List Operation} {op : Operation} {c : κ} (hb : a.begins op = some c)
    (hc : a.isOpen c ops = false) : (a.opened (ops ++ [op])).Perm (c :: a.opened ops) := by
  have he := a.ends_of_begins hb
  refine a.perm_opened (List.nodup_cons.mpr ⟨?_, a.nodup_opened _⟩) fun c' => ?_
  · rw [mem_opened, hc]
    exact Bool.false_ne_true
  · rw [List.mem_cons, mem_opened, isOpen_concat, mark, he, hb]
    by_cases e : c = c' <;> simp [e, Ne.symm]

/-- There are as many beginnings as starts that are open and ends. -/
theorem length_opened {ops : List Operation} (h : ∀ c, Alternating (a.marks c ops)) :
    (a.opened ops).length + (ops.filterMap a.ends).length = (ops.filterMap a.begins).length := by
  induction ops using List.reverseRecOn with
  | nil => rfl
  | append_singleton ops op ih =>
      have before := ih (a.alternating_left h)
      rw [List.filterMap_append, List.filterMap_append, List.length_append, List.length_append]
      cases he : a.ends op with
      | some c =>
          have hb := a.begins_of_ends he
          have closes := (a.opened_of_ends he (a.isOpen_of_ends h he)).length_eq
          simp only [List.length_cons] at closes
          simp [hb, he]
          omega
      | none =>
          cases hb : a.begins op with
          | some c =>
              have opens := (a.opened_of_begins hb (a.not_isOpen_of_begins h hb)).length_eq
              simp only [List.length_cons] at opens
              simp [hb, he]
              omega
          | none =>
              have same : (a.opened (ops ++ [op])).Perm (a.opened ops) :=
                a.perm_opened (a.nodup_opened ops) fun c => by
                  rw [mem_opened, isOpen_concat, mark, he, hb]
                  rfl
              simp [same.length_eq, hb, he, before]

/-! ### What operations do -/

/-- **What waits.**  A start waits when the last that the operations say of it is that it begins. -/
theorem contains_of_reaches {ops : List Operation} {r : Registry} (h : Reaches ops r) (c : κ) :
    (a.pending r).contains c = a.isOpen c ops := by
  induction h with
  | empty => exact a.contains_empty c
  | @configure o _ r _ ih =>
      -- fixing the options is a step of the registry that the operations do not show
      obtain ⟨hb, he, -⟩ := a.neutral o
      have step := a.contains_apply r 0 (.configure o) c
      rw [hb, he, if_neg (Option.some_ne_none c).symm, if_neg (Option.some_ne_none c).symm,
        ih] at step
      exact step
  | apply now op _ ih =>
      rw [a.contains_apply, ih, isOpen_concat, mark]
      split
      · rfl
      · split <;> rfl

/-- An operation finds the start that it ends when that is open. -/
theorem finds_of_reaches {ops : List Operation} {r : Registry} (h : Reaches ops r) (op : Operation)
    (k : Key) :
    (a.counted op = some k ∧ (a.ends op).all (a.pending r).contains = true) ↔
      a.settles k ops op = true := by
  have same : (a.pending r).contains = fun c => a.isOpen c ops := funext (a.contains_of_reaches h)
  rw [same, settles, decide_eq_true_iff]

/-- **What is counted.** -/
theorem total_of_reaches {ops : List Operation} {r : Registry} (h : Reaches ops r) (k : Key) :
    a.total r k = .ofNat (a.settled k ops) := by
  induction h with
  | empty => exact a.total_empty k
  | @configure o _ r _ ih =>
      have step := a.total_apply r 0 (.configure o) k
      rw [(a.neutral o).2.2, if_neg fun h => Option.some_ne_none k h.1.symm, ih,
        UInt64.add_zero] at step
      exact step
  | apply now op h ih =>
      rw [a.total_apply, ih, settled_concat, UInt64.ofNat_add]
      simp only [a.finds_of_reaches h]
      split <;> rfl

/-- A key has a total when something was counted for it. -/
theorem holds_of_reaches {ops : List Operation} {r : Registry} (h : Reaches ops r) (k : Key) :
    a.holds r k = decide (0 < a.settled k ops) := by
  induction h with
  | empty => exact a.holds_empty k
  | @configure o _ r _ ih =>
      have step := a.holds_apply r 0 (.configure o) k
      simp only [(a.neutral o).2.2, ih, reduceCtorEq, false_and, decide_false,
        Bool.or_false] at step
      exact step
  | @apply now op ops _ h ih =>
      rw [a.holds_apply, ih, settled_concat]
      simp only [a.finds_of_reaches h]
      cases a.settles k ops op <;> simp

/-- As many starts wait as are open. -/
theorem size_of_reaches {ops : List Operation} {r : Registry} (h : Reaches ops r) :
    (a.pending r).size = (a.opened ops).length := by
  refine Table.size_eq_length (a.nodup_opened ops) fun c => ?_
  rw [a.contains_of_reaches h, mem_opened]

end Account

end Registry
end Metering
