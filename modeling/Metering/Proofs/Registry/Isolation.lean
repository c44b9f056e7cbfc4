import Metering.Proofs.Registry.Reordered

/-!
# Proofs — Registry — Isolation

One key among others.  A history is compared with the part of it that is about one key, the operations on all other keys
left out (`alone`).  What is held of the key is then the same, and so is what its operations answer: an operation on
another key changes nothing of what is held of this one, and what an operation on the key does depends on the registry
only by what is held of it (`Isolated`).

What is held of a key falls in two parts, and they are isolated under different conditions.  Counters and calls go by
the key, and a call waits under its key and number, so nothing that is reported of other keys reaches them
(`isolated_calls`).  A creation waits under the number of its object alone.  So lives are isolated where no object of
the key is also in an operation on another one (`isolated_all`).
-/

namespace Metering.Registry

/-! ### What an operation is about -/

/-- The key that an operation is about; fixing the options is about none. -/
def Operation.key? : Operation → Option Key
  | configure _ => none
  | incrementInstances key | decrementLive key | recordCreation key _ | recordLifetime key _
  | incrementCalls key | recordCallStart key _ | recordCallEnd key _
  | incrementExceptionExits key _ => some key

/-- The object whose life an operation begins or ends. -/
def Operation.object? : Operation → Option UInt64
  | recordCreation _ id | recordLifetime _ id => some id
  | _ => none

/-- An operation is not about another key. -/
def about (k : Key) (op : Operation) : Bool := op.key?.all (· = k)

/-- The part of a history that is left when the operations on other keys are left out. -/
def alone (k : Key) (events : List Event) : List Event := events.filter (about k ·.operation)

/-- An operation on a key. -/
def isOf (k : Key) (op : Operation) : Bool := op.key? = some k

/-- An operation on a key that is not about the life of an object: it counts, or begins or ends a call. -/
def isCallOf (k : Key) (op : Operation) : Bool := isOf k op && op.object?.isNone

/-- The objects that operations on a key are about. -/
def objectsOf (k : Key) (events : List Event) : List UInt64 :=
  (events.filter (isOf k ·.operation)).filterMap (·.operation.object?)

/-- No object of the key is in an operation on another key. -/
def OwnObjects (k : Key) (events : List Event) : Prop :=
  ∀ e ∈ events, about k e.operation = false → ∀ id ∈ e.operation.object?, id ∉ objectsOf k events

instance (k : Key) (events : List Event) : Decidable (OwnObjects k events) :=
  decidable_of_iff (events.all fun e =>
      about k e.operation || e.operation.object?.all fun id => decide (id ∉ objectsOf k events))
    (by simp [OwnObjects, or_iff_not_imp_left, Option.all_eq_true])

theorem mem_objectsOf {k : Key} {events : List Event} {e : Event} {id : UInt64} (mem : e ∈ events)
    (key : e.operation.key? = some k) (object : e.operation.object? = some id) :
    id ∈ objectsOf k events :=
  List.mem_filterMap.mpr ⟨e, List.mem_filter.mpr ⟨mem, decide_eq_true key⟩, object⟩

section
variable {k : Key} {op : Operation}

theorem key?_ne_of_not_about (h : about k op = false) : op.key? ≠ some k := by
  intro hk
  simp [about, hk] at h

theorem about_of_key? (h : op.key? = some k) : about k op = true := by simp [about, h]

theorem fixes?_of_not_about (h : about k op = false) : fixes? op = none := by
  cases op with
  | configure => cases h
  | _ => rfl

theorem fixes?_of_key? (h : op.key? = some k) : fixes? op = none := by
  cases op with
  | configure => cases h
  | _ => rfl

/-- Calls that wait are about their key, and lives about their object. -/
theorem key?_of_call {id : UInt64} (h : correlation? op = some (.call k id)) : op.key? = some k := by
  cases op <;> simp_all [correlation?, started?, ended?, Operation.key?]

theorem object?_of_life {id : UInt64} (h : correlation? op = some (.life id)) :
    op.object? = some id := by
  cases op <;> simp_all [correlation?, started?, ended?, Operation.object?]

end

/-! ### Leaving events out -/

/-- Of what is held, the events that are left out change nothing, and what the others make of it depends on it alone.
So do the outcomes that are shown. -/
structure Isolated {α : Type} (held : Registry → α) (keeps shows : Operation → Bool)
    (events : List Event) : Prop where
  frame : ∀ e ∈ events, keeps e.operation = false → ∀ (r : Registry) now,
    held (r.apply now e.operation).2 = held r
  step : ∀ e ∈ events, ∀ (r r' : Registry) now, held r = held r' →
    held (r.apply now e.operation).2 = held (r'.apply now e.operation).2
  kept : ∀ op, shows op = true → keeps op = true
  answer : ∀ e ∈ events, shows e.operation = true → ∀ (r r' : Registry) now, held r = held r' →
    (r.apply now e.operation).1 = (r'.apply now e.operation).1

theorem Isolated.tail {α : Type} {held : Registry → α} {keeps shows : Operation → Bool} {e : Event}
    {rest : List Event} (h : Isolated held keeps shows (e :: rest)) : Isolated held keeps shows rest where
  frame x hx := h.frame x (List.mem_cons_of_mem e hx)
  step x hx := h.step x (List.mem_cons_of_mem e hx)
  kept := h.kept
  answer x hx := h.answer x (List.mem_cons_of_mem e hx)

/-- **Leaving out.**  A history without the events that are left out makes the same of what is held, and the outcomes
that are shown are the same. -/
theorem Isolated.run {α : Type} {held : Registry → α} {keeps shows : Operation → Bool}
    {events : List Event} (h : Isolated held keeps shows events) {r r' : Registry}
    (same : held r = held r') :
    held (r.run events).2 = held (r'.run (events.filter (keeps ·.operation))).2 ∧
      (r.answered events).filter (shows ·.1) =
        (r'.answered (events.filter (keeps ·.operation))).filter (shows ·.1) := by
  induction events generalizing r r' with
  | nil => exact ⟨same, rfl⟩
  | cons e rest ih =>
      cases kept : keeps e.operation with
      | true =>
          obtain ⟨ends, answers⟩ := ih h.tail (h.step e List.mem_cons_self r r' e.now same)
          rw [List.filter_cons_of_pos (by exact kept), answered_cons, answered_cons,
            List.filter_cons, List.filter_cons, answers]
          refine ⟨ends, ?_⟩
          cases shown : shows e.operation with
          | true => rw [h.answer e List.mem_cons_self shown r r' e.now same]
          | false => rfl
      | false =>
          have hidden : ¬ shows e.operation = true := fun shown => by
            rw [h.kept _ shown] at kept
            cases kept
          rw [List.filter_cons_of_neg (by simp [kept]), answered_cons,
            List.filter_cons_of_neg (by exact hidden)]
          exact ih h.tail ((h.frame e List.mem_cons_self kept r e.now).trans same)

/-! ### One operation and one key -/

/-- The total of a key after one operation. -/
theorem Tally.get?_apply (t : Tally) (r : Registry) (now : UInt64) (op : Operation) (k : Key) :
    (t.counters (r.apply now op).2).get? k =
      if t.counted op (r.apply now op).1 = some k then some (((t.counters r).get? k).getD 0 + 1)
      else (t.counters r).get? k := by
  rw [t.counters_apply]
  cases t.counted op (r.apply now op).1 with
  | none => rfl
  | some key =>
      rw [raised, Option.elim_some, Counters.increment, Counters.add, Table.get?_insert]
      by_cases same : key = k
      · subst same
        simp [Counters.total]
      · simp [same]

/-- The start that an operation ends for a key, if it waits. -/
def Series.start? (s : Series) (r : Registry) (op : Operation) (k : Key) : Option UInt64 :=
  (s.ends op).bind fun x => if x.1 = k then r.waiting x.2 else none

/-- The summary of a key after one operation. -/
theorem Series.get?_apply (s : Series) (r : Registry) (now : UInt64) (op : Operation) (k : Key) :
    (s.timings (r.apply now op).2).get? k =
      (s.start? r op k).elim ((s.timings r).get? k) fun start =>
        some ((((s.timings r).get? k).getD {}).record (elapsed start now) (s.keepsMin r.options)
          (s.keepsMax r.options)) := by
  rw [s.timings_apply, s.takes_apply, start?]
  cases s.ends op with
  | none => rfl
  | some x =>
      cases hw : r.waiting x.2 with
      | none => simp [hw, extended]
      | some start =>
          simp only [Option.bind_some, hw, Option.map_some, extended, Option.elim_some,
            Timings.get?_observe]
          by_cases same : x.1 = k
          · subst same
            simp
          · simp [same]

/-- What is held of the counters and the calls of a key. -/
@[ext] structure CallsHeld where
  fixed : Option RecordOptions
  instances : Option UInt64
  calls : Option UInt64
  exceptionExits : Option UInt64
  execTime : Option Timing
  /-- The calls of the key that wait, by their numbers. -/
  waiting : UInt64 → Option UInt64

def callsOf (k : Key) (r : Registry) : CallsHeld where
  fixed := r.fixed
  instances := r.instances.get? k
  calls := r.calls.get? k
  exceptionExits := r.exceptionExits.get? k
  execTime := r.execTimes.get? k
  waiting id := r.waiting (.call k id)

/-- What is held of the lives of a key that has these objects. -/
@[ext] structure LivesHeld (objects : List UInt64) where
  finished : Option UInt64
  lifetime : Option Timing
  /-- The objects that live. -/
  waiting : {id // id ∈ objects} → Option UInt64

def livesOf (k : Key) (objects : List UInt64) (r : Registry) : LivesHeld objects where
  finished := r.finished.get? k
  lifetime := r.lifetimes.get? k
  waiting id := r.waiting (.life id)

section
variable {r r' : Registry} {k : Key} {op : Operation}

theorem options_eq_of_fixed (h : r.fixed = r'.fixed) : r.options = r'.options :=
  congrArg (·.getD {}) h

/-- The start of a correlation after an operation. -/
theorem waiting_apply_congr (now : UInt64) (op : Operation) {c : Correlation} (h : r.waiting c = r'.waiting c) :
    (r.apply now op).2.waiting c = (r'.apply now op).2.waiting c := by
  rw [waiting_apply, waiting_apply, h]

theorem waiting_apply_of_ne (r : Registry) (now : UInt64) {c : Correlation}
    (h : correlation? op ≠ some c) : (r.apply now op).2.waiting c = r.waiting c := by
  have ends : ended? op ≠ some c := fun he => h (correlation?_of_ended he)
  have starts : started? op ≠ some c := fun hs => h (by rw [correlation?, hs, Option.some_or])
  rw [waiting_apply, if_neg ends, if_neg starts]

theorem Tally.get?_apply_congr (t : Tally) (now : UInt64)
    (counts : t.counted op (r.apply now op).1 = some k ↔ t.counted op (r'.apply now op).1 = some k)
    (held : (t.counters r).get? k = (t.counters r').get? k) :
    (t.counters (r.apply now op).2).get? k = (t.counters (r'.apply now op).2).get? k := by
  rw [t.get?_apply, t.get?_apply, held]
  simp only [counts]

theorem Series.get?_apply_congr (s : Series) (now : UInt64) (options : r.options = r'.options)
    (starts : s.start? r op k = s.start? r' op k)
    (held : (s.timings r).get? k = (s.timings r').get? k) :
    (s.timings (r.apply now op).2).get? k = (s.timings (r'.apply now op).2).get? k := by
  rw [s.get?_apply, s.get?_apply, starts, held, options]

theorem Series.start?_congr (s : Series) (h : ∀ c, s.ends op = some (k, c) → r.waiting c = r'.waiting c) :
    s.start? r op k = s.start? r' op k := by
  rw [start?, start?]
  cases he : s.ends op with
  | none => rfl
  | some x =>
      obtain ⟨key, c⟩ := x
      by_cases same : key = k
      · subst same
        simpa using h c he
      · simp [same]

theorem Series.start?_eq_none (s : Series) (r : Registry) (h : ∀ c, s.ends op ≠ some (k, c)) :
    s.start? r op k = none := by
  rw [start?]
  cases he : s.ends op with
  | none => rfl
  | some x =>
      obtain ⟨key, c⟩ := x
      have other : key ≠ k := by
        rintro rfl
        exact h c he
      simp [other]

/-- What an operation counts, it counts for its key. -/
theorem key?_of_counted
    (h : instanceBegun op = some k ∨ callCounted op = some k ∨ exitCounted op = some k) :
    op.key? = some k := by
  rcases h with h | h | h <;> cases op <;> first | exact h | cases h

/-- The end of a call is about the key under which the call waits. -/
theorem call_of_ends {c : Correlation} (h : execTimeEnded op = some (k, c)) :
    op.key? = some k ∧ ∃ id, c = .call k id := by
  cases op with
  | recordCallEnd key id | incrementExceptionExits key id => cases h; exact ⟨rfl, id, rfl⟩
  | _ => cases h

/-- The end of a life is about the object that waits. -/
theorem life_of_ends {c : Correlation} (h : lifetimeEnded op = some (k, c)) :
    op.key? = some k ∧ ∃ id, c = .life id ∧ op.object? = some id := by
  cases op with
  | recordLifetime key id => cases h; exact ⟨rfl, id, rfl, rfl⟩
  | _ => cases h

/-- An instance has ended when it ends by itself, or with a life that began. -/
theorem instanceFinished_iff (r : Registry) (now : UInt64) (op : Operation) (k : Key) :
    instanceFinished op (r.apply now op).1 = some k ↔
      op = .decrementLive k ∨ (lifetimeSeries.start? r op k).isSome = true := by
  cases op with
  | recordLifetime key id =>
      have start : lifetimeSeries.start? r (.recordLifetime key id) k =
        if key = k then r.waiting (.life id) else none := rfl
      rw [r.outcome_of_ended now rfl, start]
      cases r.waiting (.life id) <;> by_cases same : key = k <;>
        simp [instanceFinished, Operation.answer, same]
  | decrementLive key => simp [instanceFinished, Series.start?, lifetimeSeries, lifetimeEnded]
  | _ => simp [instanceFinished, Series.start?, lifetimeSeries, lifetimeEnded]

/-! ### What is held of a key -/

/-- **Other keys.**  An operation on another key changes nothing of the counters and calls of a key. -/
theorem callsOf_apply_of_not_about (h : about k op = false) (r : Registry) (now : UInt64) :
    callsOf k (r.apply now op).2 = callsOf k r := by
  have other := key?_ne_of_not_about h
  ext1
  · change (r.apply now op).2.fixed = r.fixed
    rw [fixed_apply, fixes?_of_not_about h, Option.or_none]
  · exact (instanceTally.get?_apply r now op k).trans
      (if_neg fun counts => other (key?_of_counted (.inl counts)))
  · exact (callTally.get?_apply r now op k).trans
      (if_neg fun counts => other (key?_of_counted (.inr (.inl counts))))
  · exact (exitTally.get?_apply r now op k).trans
      (if_neg fun counts => other (key?_of_counted (.inr (.inr counts))))
  · have nothing := execTimeSeries.start?_eq_none r fun c ends => other (call_of_ends ends).1
    exact (execTimeSeries.get?_apply r now op k).trans (by rw [nothing]; rfl)
  · exact funext fun id => r.waiting_apply_of_ne now fun waits => other (key?_of_call waits)

/-- What any operation makes of the counters and calls of a key depends on these alone. -/
theorem callsOf_apply_congr (now : UInt64) (op : Operation) (same : callsOf k r = callsOf k r') :
    callsOf k (r.apply now op).2 = callsOf k (r'.apply now op).2 := by
  have fixed : r.fixed = r'.fixed := congrArg CallsHeld.fixed same
  have waiting (id : UInt64) : r.waiting (.call k id) = r'.waiting (.call k id) :=
    congrFun (congrArg CallsHeld.waiting same) id
  ext1
  · change (r.apply now op).2.fixed = (r'.apply now op).2.fixed
    rw [fixed_apply, fixed_apply, fixed]
  · exact instanceTally.get?_apply_congr now Iff.rfl (congrArg CallsHeld.instances same)
  · exact callTally.get?_apply_congr now Iff.rfl (congrArg CallsHeld.calls same)
  · exact exitTally.get?_apply_congr now Iff.rfl (congrArg CallsHeld.exceptionExits same)
  · refine execTimeSeries.get?_apply_congr now (options_eq_of_fixed fixed) ?_ (congrArg CallsHeld.execTime same)
    refine execTimeSeries.start?_congr fun c ends => ?_
    obtain ⟨-, id, rfl⟩ := call_of_ends ends
    exact waiting id
  · exact funext fun id => waiting_apply_congr now op (waiting id)

variable {objects : List UInt64}

/-- **Other objects.**  An operation on another key changes nothing of the lives of a key, unless it is about one of the
objects of the key. -/
theorem livesOf_apply_of_not_about (h : about k op = false) (apart : ∀ id ∈ op.object?, id ∉ objects)
    (r : Registry) (now : UInt64) : livesOf k objects (r.apply now op).2 = livesOf k objects r := by
  have other := key?_ne_of_not_about h
  have nothing := lifetimeSeries.start?_eq_none r fun c ends => other (life_of_ends ends).1
  ext1
  · refine (finishedTally.get?_apply r now op k).trans (if_neg fun counts => ?_)
    rcases (instanceFinished_iff r now op k).mp counts with rfl | ended
    · exact other rfl
    · rw [nothing] at ended
      cases ended
  · exact (lifetimeSeries.get?_apply r now op k).trans (by rw [nothing]; rfl)
  · exact funext fun id => r.waiting_apply_of_ne now fun waits => apart id (object?_of_life waits) id.2

/-- What an operation makes of the lives of a key depends on these alone, and on the options, if its object is among
those of the key whenever it is about the key. -/
theorem livesOf_apply_congr (now : UInt64) (own : ∀ id, op.key? = some k → op.object? = some id → id ∈ objects)
    (options : r.options = r'.options) (same : livesOf k objects r = livesOf k objects r') :
    livesOf k objects (r.apply now op).2 = livesOf k objects (r'.apply now op).2 := by
  have waiting (id : {id // id ∈ objects}) : r.waiting (.life id) = r'.waiting (.life id) :=
    congrFun (congrArg LivesHeld.waiting same) id
  have starts : lifetimeSeries.start? r op k = lifetimeSeries.start? r' op k :=
    lifetimeSeries.start?_congr fun c ends => by
      obtain ⟨key, id, rfl, object⟩ := life_of_ends ends
      exact waiting ⟨id, own id key object⟩
  ext1
  · refine finishedTally.get?_apply_congr now ?_ (congrArg LivesHeld.finished same)
    change instanceFinished op (r.apply now op).1 = some k ↔ instanceFinished op (r'.apply now op).1 = some k
    rw [instanceFinished_iff, instanceFinished_iff, starts]
  · exact lifetimeSeries.get?_apply_congr now options starts (congrArg LivesHeld.lifetime same)
  · exact funext fun id => waiting_apply_congr now op (waiting id)

/-- What an operation on a key answers depends on what waits for it. -/
theorem outcome_congr (now : UInt64) (hk : op.key? = some k) (calls : callsOf k r = callsOf k r')
    (lives : ∀ id, op.object? = some id → r.waiting (.life id) = r'.waiting (.life id)) :
    (r.apply now op).1 = (r'.apply now op).1 := by
  have fixes := fixes?_of_key? hk
  rw [outcome_of_fixes? r now fixes, outcome_of_fixes? r' now fixes]
  cases ends : ended? op with
  | none => rfl
  | some c =>
      rw [Option.bind_some, Option.bind_some]
      have waiting : r.waiting c = r'.waiting c := by
        cases c with
        | life id => exact lives id (object?_of_life (correlation?_of_ended ends))
        | call key id =>
            have same := (key?_of_call (correlation?_of_ended ends)).symm.trans hk
            cases same
            exact congrFun (congrArg CallsHeld.waiting calls) id
      rw [waiting]

end

/-! ### One key among others -/

theorem isolated_calls (k : Key) (events : List Event) :
    Isolated (callsOf k) (about k) (isCallOf k) events where
  frame _ _ other r now := callsOf_apply_of_not_about other r now
  step e _ _ _ now same := callsOf_apply_congr now e.operation same
  kept op shown := by
    rw [isCallOf, Bool.and_eq_true] at shown
    exact about_of_key? (of_decide_eq_true shown.1)
  answer e _ shown r r' now same := by
    rw [isCallOf, Bool.and_eq_true] at shown
    refine outcome_congr now (of_decide_eq_true shown.1) same fun id object => ?_
    rw [object] at shown
    cases shown.2

theorem isolated_all {k : Key} {events : List Event} (own : OwnObjects k events) :
    Isolated (fun r => (callsOf k r, livesOf k (objectsOf k events) r)) (about k) (isOf k) events where
  frame e mem other r now :=
    Prod.ext (callsOf_apply_of_not_about other r now)
      (livesOf_apply_of_not_about other (own e mem other) r now)
  step e mem r r' now same := by
    obtain ⟨calls, lives⟩ := Prod.ext_iff.mp same
    exact Prod.ext (callsOf_apply_congr now e.operation calls)
      (livesOf_apply_congr now (fun id key object => mem_objectsOf mem key object)
        (options_eq_of_fixed (congrArg CallsHeld.fixed calls)) lives)
  kept op shown := about_of_key? (of_decide_eq_true shown)
  answer e mem shown r r' now same := by
    obtain ⟨calls, lives⟩ := Prod.ext_iff.mp same
    have key := of_decide_eq_true shown
    exact outcome_congr now key calls fun id object =>
      congrFun (congrArg LivesHeld.waiting lives) ⟨id, mem_objectsOf mem key object⟩

/-- **Isolation.**  Leave the operations on other keys out of a history.  Then all that is read of the counters and
calls of the key is the same, whatever numbers the calls share, and all its operations but those on lives have the
same outcomes.  Where no object of the key is in an operation on another one, this is so for its lives as well: the
same is read of them and of the live instances, and all operations on the key have the same outcomes. -/
theorem reads_and_outcomes_alone (r : Registry) (events : List Event) (k : Key) :
    let whole := (r.run events).2
    let part := (r.run (alone k events)).2
    (whole.instanceTotal k = part.instanceTotal k ∧ whole.callCount k = part.callCount k ∧
        whole.exceptionExitCount k = part.exceptionExitCount k ∧ whole.execTime? k = part.execTime? k ∧
        ∀ category ≠ .lifetimes, whole.contains category k = part.contains category k) ∧
      (r.answered events).filter (isCallOf k ·.1) =
        (r.answered (alone k events)).filter (isCallOf k ·.1) ∧
      (OwnObjects k events →
        (whole.lifetime? k = part.lifetime? k ∧ whole.instanceLive k = part.instanceLive k ∧
          whole.contains .lifetimes k = part.contains .lifetimes k) ∧
        (r.answered events).filter (isOf k ·.1) = (r.answered (alone k events)).filter (isOf k ·.1)) := by
  intro whole part
  obtain ⟨calls, answers⟩ := (isolated_calls k events).run (rfl : callsOf k r = callsOf k r)
  have instances : whole.instances.get? k = part.instances.get? k := congrArg CallsHeld.instances calls
  have count : whole.calls.get? k = part.calls.get? k := congrArg CallsHeld.calls calls
  have exits : whole.exceptionExits.get? k = part.exceptionExits.get? k :=
    congrArg CallsHeld.exceptionExits calls
  have times : whole.execTimes.get? k = part.execTimes.get? k := congrArg CallsHeld.execTime calls
  refine ⟨⟨congrArg (·.getD 0) instances, congrArg (·.getD 0) count, congrArg (·.getD 0) exits, times,
    fun category counted => ?_⟩, answers, fun own => ?_⟩
  · cases category with
    | instances => exact congrArg Option.isSome instances
    | lifetimes => exact absurd rfl counted
    | calls => exact congrArg Option.isSome count
    | execTimes => exact congrArg Option.isSome times
    | exceptionExits => exact congrArg Option.isSome exits
  · obtain ⟨all, answers⟩ := (isolated_all own).run (rfl : (callsOf k r, livesOf k _ r) = _)
    have lives := (Prod.ext_iff.mp all).2
    have finished : whole.finished.get? k = part.finished.get? k := congrArg LivesHeld.finished lives
    have lifetime : whole.lifetimes.get? k = part.lifetimes.get? k := congrArg LivesHeld.lifetime lives
    refine ⟨⟨lifetime, ?_, congrArg Option.isSome lifetime⟩, answers⟩
    rw [instanceLive, instanceLive, Counters.total, Counters.total, Counters.total, Counters.total,
      instances, finished]

/-- Two keys with calls of the same number at the same time, and an object each. -/
theorem reads_and_outcomes_of_two_keys :
    let k := Key.entity "A"
    let l := Key.entity "B"
    let events : List Event := [⟨0, .recordCallStart k 1⟩, ⟨1, .recordCreation k 7⟩,
      ⟨2, .recordCallStart l 1⟩, ⟨3, .recordCreation l 8⟩, ⟨5, .recordCallEnd l 1⟩,
      ⟨6, .recordLifetime l 8⟩, ⟨9, .recordCallEnd k 1⟩, ⟨12, .recordLifetime k 7⟩]
    let whole := (empty.run events).2
    OwnObjects k events ∧
      alone k events = [⟨0, .recordCallStart k 1⟩, ⟨1, .recordCreation k 7⟩, ⟨9, .recordCallEnd k 1⟩,
        ⟨12, .recordLifetime k 7⟩] ∧
      whole.execTime? k = some ⟨9, 1, none, none⟩ ∧ whole.lifetime? k = some ⟨11, 1, none, none⟩ ∧
      whole.instanceLive k = -1 ∧
      (empty.answered events).filter (isOf k ·.1) = [(.recordCallStart k 1, .recorded),
        (.recordCreation k 7, .recorded), (.recordCallEnd k 1, .completed 9),
        (.recordLifetime k 7, .completed 11)] := by
  intro k l events whole
  have own : OwnObjects k events := by decide +kernel
  have part : alone k events = [⟨0, .recordCallStart k 1⟩, ⟨1, .recordCreation k 7⟩,
    ⟨9, .recordCallEnd k 1⟩, ⟨12, .recordLifetime k 7⟩] := by decide +kernel
  obtain ⟨⟨-, -, -, times, -⟩, -, lives⟩ := reads_and_outcomes_alone empty events k
  obtain ⟨⟨lifetime, live, -⟩, answers⟩ := lives own
  rw [part] at times lifetime live answers
  exact ⟨own, part, times.trans (by decide +kernel), lifetime.trans (by decide +kernel),
    live.trans (by decide +kernel), answers.trans (by decide +kernel)⟩

/-- An object that two keys share: the life ends for the other key, so that for its own key it does not. -/
example :
    let k := Key.entity "A"
    let events : List Event := [⟨0, .recordCreation k 7⟩, ⟨3, .recordLifetime (Key.entity "B") 7⟩,
      ⟨5, .recordLifetime k 7⟩]
    (empty.run events).2.lifetime? k = none ∧
      (empty.run (alone k events)).2.lifetime? k = some ⟨5, 1, none, none⟩ := by
  decide +kernel

end Metering.Registry
