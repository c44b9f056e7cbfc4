import Metering.Proofs.Registry.Calls
import Metering.Proofs.Registry.Entries
import Metering.Proofs.Registry.Lives

/-!
# Proofs — Registry — Reads

What a registry holds for a key, said by its history.  A `Tally` is a family of counters with what each entry counts in
it, a `Series` a family of summaries with the times that entries take in.  Both carry the law of one operation, and
what a whole history leaves is one induction for each of them (`Tally.total_run`, `Series.sumsUp_run`).  A summary is
compared with the times themselves: their sum and number as words, and the least and the greatest of those that were
tracked (`SumsUp`).

`reads_run` puts the families together.
-/

namespace Metering.Registry
open History

/-! ### What an operation tells, and what it changes -/

/-- The key of which an operation counts a call. -/
def callCounted : Operation → Option Key
  | .incrementCalls key => some key
  | _ => none

/-- The key of which an operation counts an exceptional exit. -/
def exitCounted : Operation → Option Key
  | .incrementExceptionExits key _ => some key
  | _ => none

/-- The key of which an operation ends an instance: by itself, or by a life that is completed. -/
def instanceFinished : Operation → Outcome → Option Key
  | .decrementLive key, _ | .recordLifetime key _, .completed _ => some key
  | _, _ => none

/-- The life that an operation completes: its key and the time. -/
def lifetimeTaken : Operation → Outcome → Option (Key × UInt64)
  | .recordLifetime key _, .completed time => some (key, time)
  | _, _ => none

/-- The call that an operation completes, normally or exceptionally: its key and the time. -/
def execTimeTaken : Operation → Outcome → Option (Key × UInt64)
  | .recordCallEnd key _, .completed time => some (key, time)
  | .incrementExceptionExits key _, .exited (some time) => some (key, time)
  | _, _ => none

/-- The key and the correlation of the end of a life. -/
def lifetimeEnded : Operation → Option (Key × Correlation)
  | .recordLifetime key id => some (key, .life id)
  | _ => none

/-- The key and the correlation of the end of a call. -/
def execTimeEnded : Operation → Option (Key × Correlation)
  | .recordCallEnd key id | .incrementExceptionExits key id => some (key, .call key id)
  | _ => none

/-- Counters after one more was counted, if it was. -/
def raised (c : Counters) (key : Option Key) : Counters := key.elim c c.increment

/-- Summaries after one more time was taken in, if it was. -/
def extended (t : Timings) (taken : Option (Key × UInt64)) (trackMin trackMax : Bool) : Timings :=
  taken.elim t fun x => t.observe x.1 x.2 trackMin trackMax

/-- **One operation.**  Each family changes by what the operation and its outcome tell. -/
theorem apply_eq (r : Registry) (now : UInt64) (op : Operation) :
    ∃ fixed births callStarts, (r.apply now op).2 =
      { fixed, births, callStarts
        instances := raised r.instances (instanceBegun op)
        finished := raised r.finished (instanceFinished op (r.apply now op).1)
        calls := raised r.calls (callCounted op)
        exceptionExits := raised r.exceptionExits (exitCounted op)
        lifetimes := extended r.lifetimes (lifetimeTaken op (r.apply now op).1)
          r.options.lifetimeMin r.options.lifetimeMax
        execTimes := extended r.execTimes (execTimeTaken op (r.apply now op).1)
          r.options.execTimeMin r.options.execTimeMax } := by
  cases op with
  | configure options =>
      obtain ⟨fixed, step⟩ := r.apply_configure now options
      exact ⟨fixed, r.births, r.callStarts, step⟩
  | recordLifetime key id =>
      rw [apply, recordLifetime, Pending.take]
      cases r.births.get? id <;> exact ⟨_, _, _, rfl⟩
  | recordCallEnd key id =>
      rw [apply, recordCallEnd, finishCall, Pending.take]
      cases r.callStarts.get? (key, id) <;> exact ⟨_, _, _, rfl⟩
  | incrementExceptionExits key id =>
      rw [apply, incrementExceptionExits, finishCall, Pending.take]
      cases r.callStarts.get? (key, id) <;> exact ⟨_, _, _, rfl⟩
  | _ => exact ⟨_, _, _, rfl⟩

/-! ### Totals -/

/-- A family of counters, and the key that an operation counts in it by its outcome. -/
structure Tally where
  counters : Registry → Counters
  counted : Operation → Outcome → Option Key
  counters_empty : counters empty = .empty
  counters_apply : ∀ r now op,
    counters (r.apply now op).2 = raised (counters r) (counted op (r.apply now op).1)

namespace Tally

variable (t : Tally)

/-- The key that an entry counts. -/
def key? (x : Entry) : Option Key := t.counted x.operation x.outcome

/-- How many entries count for a key. -/
def count (k : Key) (events : List Event) : Nat :=
  (entries events).countP fun x => t.key? x = some k

theorem count_concat (k : Key) (events : List Event) (e : Event) :
    t.count k (events ++ [e]) =
      t.count k events + if t.key? (entryAfter events e) = some k then 1 else 0 := by
  rw [count, entries_concat, List.countP_append, List.countP_singleton, count]
  simp only [decide_eq_true_eq]

theorem counters_concat (events : List Event) (e : Event) :
    t.counters (empty.run (events ++ [e])).2 =
      raised (t.counters (empty.run events).2) (t.key? (entryAfter events e)) := by
  rw [run_concat, t.counters_apply]
  rfl

/-- **Totals.**  A total is the number of entries that count for the key, as a word, and the key has a counter when
there is one. -/
theorem total_run (events : List Event) (k : Key) :
    (t.counters (empty.run events).2).total k = .ofNat (t.count k events) ∧
      (t.counters (empty.run events).2).contains k = decide (0 < t.count k events) := by
  induction events using List.reverseRecOn with
  | nil =>
      change (t.counters empty).total k = _ ∧ (t.counters empty).contains k = _
      rw [t.counters_empty]
      exact ⟨rfl, rfl⟩
  | append_singleton events e ih =>
      rw [counters_concat, count_concat, UInt64.ofNat_add, ← ih.1]
      cases hk : t.key? (entryAfter events e) with
      | none => exact ⟨by simp [raised], by simpa [raised] using ih.2⟩
      | some key =>
          rw [raised, Option.elim_some, total_increment, contains_increment, ih.2]
          by_cases same : key = k <;> simp [same]

/-- What a tally counts that goes by the operation alone. -/
theorem total_run_of_operation (told : Operation → Option Key)
    (h : ∀ op outcome, t.counted op outcome = told op) (events : List Event) (k : Key) :
    let number := events.countP fun e => told e.operation = some k
    ((t.counters (empty.run events).2).total k).toNat = number % 2 ^ 64 ∧
      (t.counters (empty.run events).2).contains k = decide (0 < number) := by
  intro number
  have same : (fun x => decide (t.key? x = some k)) =
      (fun op => decide (told op = some k)) ∘ Entry.operation :=
    funext fun x => by rw [Function.comp_apply, key?, h]
  have count : t.count k events = number := by
    rw [Tally.count, same, ← List.countP_map, map_operation_entries, List.countP_map]
    rfl
  rw [← count, ← UInt64.toNat_ofNat', (t.total_run events k).1]
  exact ⟨rfl, (t.total_run events k).2⟩

end Tally

def instanceTally : Tally where
  counters := instances
  counted op _ := instanceBegun op
  counters_empty := rfl
  counters_apply r now op := by obtain ⟨_, _, _, step⟩ := r.apply_eq now op; rw [step]

def finishedTally : Tally where
  counters := finished
  counted := instanceFinished
  counters_empty := rfl
  counters_apply r now op := by obtain ⟨_, _, _, step⟩ := r.apply_eq now op; rw [step]

def callTally : Tally where
  counters := calls
  counted op _ := callCounted op
  counters_empty := rfl
  counters_apply r now op := by obtain ⟨_, _, _, step⟩ := r.apply_eq now op; rw [step]

def exitTally : Tally where
  counters := exceptionExits
  counted op _ := exitCounted op
  counters_empty := rfl
  counters_apply r now op := by obtain ⟨_, _, _, step⟩ := r.apply_eq now op; rw [step]

/-! ### Summaries of times -/

/-- A time as the extrema see it, which reserve the greatest word. -/
def capped (time : UInt64) : Nat := min time.toNat (2 ^ 64 - 2)

theorem toNat_sample (time : UInt64) : (Timing.sample time).toNat = capped time := by
  have cap : Timing.cap.toNat = 2 ^ 64 - 2 := rfl
  rw [Timing.sample, capped]
  split
  · rename_i h
    rw [UInt64.lt_iff_toNat_lt, cap] at h
    exact (Nat.min_eq_left h.le).symm
  · rename_i h
    rw [UInt64.lt_iff_toNat_lt, cap] at h
    exact (Nat.min_eq_right (not_lt.mp h)).symm

/-- A summary of times, each of which came under options that may keep the least and the greatest: the sum and the
number are words, and the extrema are those of the times that came while they were kept. -/
structure SumsUp (t : Timing) (taken : List (UInt64 × RecordOptions))
    (keepsMin keepsMax : RecordOptions → Bool) : Prop where
  sum : t.sum.toNat = (taken.map (·.1.toNat)).sum % 2 ^ 64
  completed : t.completed.toNat = taken.length % 2 ^ 64
  min : t.min.map (·.toNat) = ((taken.filter (keepsMin ·.2)).map (capped ·.1)).min?
  max : t.max.map (·.toNat) = ((taken.filter (keepsMax ·.2)).map (capped ·.1)).max?

theorem min?_concat (xs : List Nat) (x : Nat) :
    (xs ++ [x]).min? = some (xs.min?.elim x (min · x)) := by
  cases xs with
  | nil => rfl
  | cons y ys => rw [List.cons_append, List.min?_cons', List.foldl_append, List.min?_cons']; rfl

theorem max?_concat (xs : List Nat) (x : Nat) :
    (xs ++ [x]).max? = some (xs.max?.elim x (max · x)) := by
  cases xs with
  | nil => rfl
  | cons y ys => rw [List.cons_append, List.max?_cons', List.foldl_append, List.max?_cons']; rfl

/-- A sample replaces the least one so far if it is less. -/
theorem extremum_min {held : Option UInt64} {xs : List Nat} (h : held.map (·.toNat) = xs.min?)
    (time : UInt64) :
    (Timing.extremum (· < ·) held (Timing.sample time)).map (·.toNat) =
      (xs ++ [capped time]).min? := by
  rw [min?_concat, ← h, ← toNat_sample]
  cases held with
  | none => rfl
  | some held =>
      simp only [Timing.extremum, Option.map_some, Option.elim_some, decide_eq_true_eq,
        UInt64.lt_iff_toNat_lt]
      split <;> simp only [Option.map_some, Option.some.injEq] <;> omega

/-- And the greatest one if it is greater. -/
theorem extremum_max {held : Option UInt64} {xs : List Nat} (h : held.map (·.toNat) = xs.max?)
    (time : UInt64) :
    (Timing.extremum (· > ·) held (Timing.sample time)).map (·.toNat) =
      (xs ++ [capped time]).max? := by
  rw [max?_concat, ← h, ← toNat_sample]
  cases held with
  | none => rfl
  | some held =>
      simp only [Timing.extremum, Option.map_some, Option.elim_some, decide_eq_true_eq, gt_iff_lt,
        UInt64.lt_iff_toNat_lt]
      split <;> simp only [Option.map_some, Option.some.injEq] <;> omega

section
variable {keepsMin keepsMax : RecordOptions → Bool}

theorem sumsUp_nil : SumsUp {} [] keepsMin keepsMax := ⟨rfl, rfl, rfl, rfl⟩

/-- **One time.** -/
theorem SumsUp.record {t : Timing} {taken : List (UInt64 × RecordOptions)}
    (h : SumsUp t taken keepsMin keepsMax) (time : UInt64) (options : RecordOptions) :
    SumsUp (t.record time (keepsMin options) (keepsMax options)) (taken ++ [(time, options)])
      keepsMin keepsMax where
  sum := by
    rw [List.map_append, List.sum_append]
    simp [Timing.record, h.sum]
  completed := by simp [Timing.record, h.completed]
  min := by
    rw [List.filter_append, List.map_append, Timing.record]
    cases hk : keepsMin options with
    | true => simpa [hk] using extremum_min h.min time
    | false => simpa [hk] using h.min
  max := by
    rw [List.filter_append, List.map_append, Timing.record]
    cases hk : keepsMax options with
    | true => simpa [hk] using extremum_max h.max time
    | false => simpa [hk] using h.max

end

/-- A family of summaries, the key and the time that an operation takes in by its outcome, and which options keep the
extrema.  What may take one in is a completion, and it does when its start waits. -/
structure Series where
  timings : Registry → Timings
  takes : Operation → Outcome → Option (Key × UInt64)
  keepsMin : RecordOptions → Bool
  keepsMax : RecordOptions → Bool
  /-- The key and the correlation of a completion. -/
  ends : Operation → Option (Key × Correlation)
  timings_empty : timings empty = .empty
  timings_apply : ∀ r now op, timings (r.apply now op).2 =
    extended (timings r) (takes op (r.apply now op).1) (keepsMin r.options) (keepsMax r.options)
  takes_apply : ∀ (r : Registry) now op, takes op (r.apply now op).1 =
    (ends op).bind fun x => (r.waiting x.2).map fun start => (x.1, elapsed start now)

namespace Series

variable (s : Series)

/-- The time that an entry takes in for a key, with the options in force. -/
def time? (k : Key) (x : Entry) : Option (UInt64 × RecordOptions) :=
  (s.takes x.operation x.outcome).bind fun y => if y.1 = k then some (y.2, x.options) else none

/-- The times that a history takes in for a key, each with the options that were in force. -/
def taken (k : Key) (events : List Event) : List (UInt64 × RecordOptions) :=
  (entries events).filterMap (s.time? k)

theorem taken_concat (k : Key) (events : List Event) (e : Event) :
    s.taken k (events ++ [e]) = s.taken k events ++ (s.time? k (entryAfter events e)).toList := by
  rw [taken, entries_concat, List.filterMap_append, taken]
  exact congrArg _ (filterMap_toList (some (entryAfter events e)) (s.time? k))

theorem timings_concat (events : List Event) (e : Event) :
    s.timings (empty.run (events ++ [e])).2 =
      extended (s.timings (empty.run events).2)
        (s.takes e.operation (entryAfter events e).outcome) (s.keepsMin (inForce events))
        (s.keepsMax (inForce events)) := by
  rw [run_concat, s.timings_apply, options_run]
  rfl

/-- **Summaries.**  The summary of a key sums up the times that the history took in for it, and there is one when a
time was taken in. -/
theorem sumsUp_run (events : List Event) (k : Key) :
    let summary := (s.timings (empty.run events).2).get? k
    SumsUp (summary.getD {}) (s.taken k events) s.keepsMin s.keepsMax ∧
      (summary = none ↔ s.taken k events = []) := by
  induction events using List.reverseRecOn with
  | nil =>
      have none : (s.timings (empty.run []).2).get? k = none :=
        congrArg (Table.get? · k) s.timings_empty
      rw [none]
      exact ⟨sumsUp_nil, iff_of_true rfl rfl⟩
  | append_singleton events e ih =>
      have one : s.time? k (entryAfter events e) =
          (s.takes e.operation (entryAfter events e).outcome).bind fun y =>
            if y.1 = k then some (y.2, inForce events) else none := rfl
      rw [timings_concat, taken_concat, one]
      cases s.takes e.operation (entryAfter events e).outcome with
      | none => simpa [extended] using ih
      | some x =>
          obtain ⟨key, time⟩ := x
          rw [extended, Option.elim_some, Timings.get?_observe]
          by_cases same : key = k
          · subst same
            simpa using ih.1.record time (inForce events)
          · simpa [same] using ih

/-- **Times.**  What is taken in for a key are the times of the completions that find their start. -/
theorem mem_taken {k : Key} {events : List Event} {time : UInt64} {options : RecordOptions} :
    (time, options) ∈ s.taken k events ↔
      ∃ before e after c start, events = before ++ e :: after ∧
        s.ends e.operation = some (k, c) ∧ waitingSince c before = some start ∧
          time = elapsed start e.now ∧ options = inForce before := by
  have one (before : List Event) (e : Event) :
      s.time? k (entryAfter before e) = some (time, options) ↔
        ∃ c start, s.ends e.operation = some (k, c) ∧ waitingSince c before = some start ∧
          time = elapsed start e.now ∧ options = inForce before := by
    have takes : s.takes e.operation (entryAfter before e).outcome =
        (s.ends e.operation).bind fun x =>
          (waitingSince x.2 before).map fun start => (x.1, elapsed start e.now) := by
      simp only [← waiting_run]
      exact s.takes_apply _ _ _
    change (s.takes e.operation (entryAfter before e).outcome).bind
      (fun y => if y.1 = k then some (y.2, inForce before) else none) = _ ↔ _
    rw [takes]
    cases s.ends e.operation with
    | none => simp
    | some x =>
        cases hw : waitingSince x.2 before <;> grind
  simp only [taken, List.mem_filterMap, mem_entries]
  refine ⟨?_, ?_⟩
  · rintro ⟨x, ⟨before, e, after, rfl, rfl⟩, hx⟩
    obtain ⟨c, start, told⟩ := (one before e).mp hx
    exact ⟨before, e, after, c, start, rfl, told⟩
  · rintro ⟨before, e, after, c, start, rfl, told⟩
    exact ⟨_, ⟨before, e, after, rfl, rfl⟩, (one before e).mpr ⟨c, start, told⟩⟩

end Series

def lifetimeSeries : Series where
  timings := lifetimes
  takes := lifetimeTaken
  keepsMin := (·.lifetimeMin)
  keepsMax := (·.lifetimeMax)
  ends := lifetimeEnded
  timings_empty := rfl
  timings_apply r now op := by obtain ⟨_, _, _, step⟩ := r.apply_eq now op; rw [step]
  takes_apply r now op := by
    cases op with
    | recordLifetime key id =>
        rw [r.outcome_of_ended now rfl, lifetimeEnded, Option.bind_some]
        cases r.waiting (.life id) <;> rfl
    | _ => rfl

def execTimeSeries : Series where
  timings := execTimes
  takes := execTimeTaken
  keepsMin := (·.execTimeMin)
  keepsMax := (·.execTimeMax)
  ends := execTimeEnded
  timings_empty := rfl
  timings_apply r now op := by obtain ⟨_, _, _, step⟩ := r.apply_eq now op; rw [step]
  takes_apply r now op := by
    cases op with
    | recordCallEnd key id | incrementExceptionExits key id =>
        rw [r.outcome_of_ended now rfl, execTimeEnded, Option.bind_some]
        cases r.waiting (.call key id) <;> rfl
    | _ => rfl

/-! ### All families -/

/-- The instances that have ended are those that ended by themselves and the lives that were completed. -/
theorem count_finished (k : Key) (events : List Event) :
    finishedTally.count k events =
      (events.countP fun e => e.operation = .decrementLive k) +
        (lifetimeSeries.taken k events).length := by
  have one (x : Entry) : (if finishedTally.key? x = some k then 1 else 0) =
      (if x.operation = .decrementLive k then 1 else 0) + (lifetimeSeries.time? k x).toList.length := by
    obtain ⟨op, outcome, options⟩ := x
    cases op with
    | decrementLive key => simp [Tally.key?, Series.time?, finishedTally, instanceFinished,
        lifetimeSeries, lifetimeTaken]
    | recordLifetime key id =>
        cases outcome with
        | completed time =>
            by_cases same : key = k <;> simp [Tally.key?, Series.time?, finishedTally,
              instanceFinished, lifetimeSeries, lifetimeTaken, same]
        | _ => rfl
    | _ => rfl
  induction events using List.reverseRecOn with
  | nil => rfl
  | append_singleton events e ih =>
      rw [Tally.count_concat, Series.taken_concat, List.countP_append, List.length_append, ih, one,
        List.countP_singleton]
      simp only [decide_eq_true_eq]
      have operation : (entryAfter events e).operation = e.operation := rfl
      rw [operation]
      omega

/-- How many events of a family happened for a key; a completion counts if it took in a time. -/
def occurrences (events : List Event) (k : Key) : Category → Nat
  | .instances => events.countP fun e => instanceBegun e.operation = some k
  | .lifetimes => (lifetimeSeries.taken k events).length
  | .calls => events.countP fun e => callCounted e.operation = some k
  | .execTimes => (execTimeSeries.taken k events).length
  | .exceptionExits => events.countP fun e => exitCounted e.operation = some k

/-- A summary is there when a time was taken in. -/
theorem Series.contains_run (s : Series) (events : List Event) (k : Key) :
    (s.timings (empty.run events).2).contains k = decide (0 < (s.taken k events).length) := by
  have none_iff := (s.sumsUp_run events k).2
  rw [Table.contains]
  cases h : (s.timings (empty.run events).2).get? k with
  | none => simp [none_iff.mp h]
  | some t => simp [List.length_pos_iff, ← none_iff, h]

/-- The families that have a key are those of which an event happened for it. -/
theorem contains_run (events : List Event) (k : Key) (category : Category) :
    (empty.run events).2.contains category k = decide (0 < occurrences events k category) := by
  cases category with
  | instances =>
      exact (instanceTally.total_run_of_operation instanceBegun (fun _ _ => rfl) events k).2
  | lifetimes => exact lifetimeSeries.contains_run events k
  | calls => exact (callTally.total_run_of_operation callCounted (fun _ _ => rfl) events k).2
  | execTimes => exact execTimeSeries.contains_run events k
  | exceptionExits => exact (exitTally.total_run_of_operation exitCounted (fun _ _ => rfl) events k).2

/-- What is held of the times of a key. -/
theorem Series.get?_run (s : Series) (events : List Event) (k : Key) :
    ((s.timings (empty.run events).2).get? k = none ↔ s.taken k events = []) ∧
      ∀ t, (s.timings (empty.run events).2).get? k = some t →
        SumsUp t (s.taken k events) s.keepsMin s.keepsMax := by
  obtain ⟨sums, none_iff⟩ := s.sumsUp_run events k
  refine ⟨none_iff, fun t ht => ?_⟩
  rwa [ht] at sums

/-- **What a history leaves.**  The totals of a key are the numbers of the events that count for it, as words; what is
held of its lifetimes and of the times of its calls sums up the times that completions took in, the extrema those that
came while the options in force kept them; the instances that have ended are those that ended by themselves and the
completed lives; and a family has the key if an event of the family happened for it. -/
theorem reads_run (events : List Event) (k : Key) :
    let r := (empty.run events).2
    (r.instanceTotal k).toNat = occurrences events k .instances % 2 ^ 64 ∧
      (r.callCount k).toNat = occurrences events k .calls % 2 ^ 64 ∧
      (r.exceptionExitCount k).toNat = occurrences events k .exceptionExits % 2 ^ 64 ∧
      ((r.lifetime? k = none ↔ lifetimeSeries.taken k events = []) ∧
        ∀ t, r.lifetime? k = some t →
          SumsUp t (lifetimeSeries.taken k events) (·.lifetimeMin) (·.lifetimeMax)) ∧
      ((r.execTime? k = none ↔ execTimeSeries.taken k events = []) ∧
        ∀ t, r.execTime? k = some t →
          SumsUp t (execTimeSeries.taken k events) (·.execTimeMin) (·.execTimeMax)) ∧
      (r.finished.total k).toNat = ((events.countP fun e => e.operation = .decrementLive k) +
        (lifetimeSeries.taken k events).length) % 2 ^ 64 ∧
      ∀ category, r.contains category k = true ↔ 0 < occurrences events k category := by
  intro r
  refine ⟨(instanceTally.total_run_of_operation instanceBegun (fun _ _ => rfl) events k).1,
    (callTally.total_run_of_operation callCounted (fun _ _ => rfl) events k).1,
    (exitTally.total_run_of_operation exitCounted (fun _ _ => rfl) events k).1,
    lifetimeSeries.get?_run events k, execTimeSeries.get?_run events k, ?_, fun category => ?_⟩
  · rw [← count_finished, ← UInt64.toNat_ofNat', ← (finishedTally.total_run events k).1]
    rfl
  · rw [contains_run, decide_eq_true_iff]

/-- Three lives of one entity.  The first ends before any options are fixed, the others while the least time is kept. -/
theorem reads_three_lives :
    let k := Key.entity "A"
    let options : RecordOptions := { lifetimeMin := true }
    let events : List Event := [⟨0, .recordCreation k 1⟩, ⟨2, .recordLifetime k 1⟩,
      ⟨3, .configure options⟩, ⟨6, .recordCreation k 1⟩, ⟨9, .recordLifetime k 1⟩,
      ⟨10, .recordCreation k 2⟩, ⟨17, .recordLifetime k 2⟩]
    lifetimeSeries.taken k events = [(2, {}), (3, options), (7, options)] ∧
      ∃ t, (empty.run events).2.lifetime? k = some t ∧ t.sum.toNat = 12 ∧ t.completed.toNat = 3 ∧
        t.min.map (·.toNat) = some 3 ∧ t.max.map (·.toNat) = none := by
  intro k options events
  have taken : lifetimeSeries.taken k events = [(2, {}), (3, options), (7, options)] := by
    decide +kernel
  obtain ⟨-, -, -, ⟨none_iff, sums⟩, -⟩ := reads_run events k
  rw [taken] at none_iff sums
  obtain ⟨t, ht⟩ := Option.ne_none_iff_exists'.mp (mt none_iff.mp (by simp))
  have sum := sums t ht
  exact ⟨taken, t, ht, sum.sum, sum.completed, sum.min, sum.max⟩

end Metering.Registry
