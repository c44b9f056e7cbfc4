import Mathlib.Algebra.Order.BigOperators.Group.List
import Metering.Proofs.Probe.Exposed

/-!
# Proofs — Probe — Extrema

Least, average and greatest times.  A summary keeps its sum and its extrema apart, and the extrema see only what came
while the options kept them, so they need not fit together: times that came before the options were fixed are in the
average alone, and sums wrap.  Where the registration point is entered before anything is completed
(`RegisteredFirst`), every time comes under the same options (`options_of_taken`).  Then, as long as the sum stays below
the reserved word, the extrema are those of all times and the average lies between them
(`extrema_of_registeredFirst`).
-/

namespace Metering

namespace Registry

/-- The sum of times. -/
def sumOf (times : List UInt64) : Nat := (times.map (·.toNat)).sum

/-! ### Summaries that did not wrap -/

section
variable {t : Timing} {taken : List (UInt64 × RecordOptions)} {keepsMin keepsMax : RecordOptions → Bool}

theorem toNat_le_sumOf {times : List UInt64} {time : UInt64} (h : time ∈ times) :
    time.toNat ≤ sumOf times :=
  List.single_le_sum (fun _ _ => Nat.zero_le _) _ (List.mem_map_of_mem h)

/-- The average is that of the times. -/
theorem SumsUp.toNat_average (h : SumsUp t taken keepsMin keepsMax)
    (small : sumOf (taken.map Prod.fst) < 2 ^ 64 - 1) (few : taken.length < 2 ^ 64) :
    t.average.toNat = sumOf (taken.map Prod.fst) / taken.length := by
  have same : (taken.map (·.1.toNat)).sum = sumOf (taken.map Prod.fst) := by
    rw [sumOf, List.map_map]
    rfl
  have sum : t.sum.toNat = sumOf (taken.map Prod.fst) := by
    rw [h.sum, same]
    exact Nat.mod_eq_of_lt (by omega)
  have completed : t.completed.toNat = taken.length := h.completed.trans (Nat.mod_eq_of_lt few)
  rw [Timing.average, averageOf, ← sum, ← completed]
  split
  · rename_i none
    rw [none]
    exact (Nat.div_zero _).symm
  · exact UInt64.toNat_div _ _

/-- What the extrema see, when they were kept all the time and nothing is capped. -/
theorem map_capped_filter {keeps : RecordOptions → Bool} (kept : ∀ x ∈ taken, keeps x.2 = true)
    (small : sumOf (taken.map Prod.fst) < 2 ^ 64 - 1) :
    (taken.filter (keeps ·.2)).map (capped ·.1) = (taken.map Prod.fst).map (·.toNat) := by
  rw [List.filter_eq_self.mpr kept, List.map_map]
  refine List.map_congr_left fun x hx => ?_
  have le := toNat_le_sumOf (List.mem_map_of_mem (f := Prod.fst) hx)
  exact min_eq_left (by omega)

/-- An extremum that is the number of a time is this time. -/
theorem exists_time {held : Option UInt64} {times : List UInt64} {n : Nat}
    (h : held.map (·.toNat) = some n) (mem : n ∈ times.map (·.toNat)) :
    ∃ time ∈ times, held = some time ∧ time.toNat = n := by
  obtain ⟨time, ht, rfl⟩ := List.mem_map.mp mem
  obtain ⟨time', rfl, e⟩ := Option.map_eq_some_iff.mp h
  exact ⟨time, ht, congrArg some (UInt64.toNat_inj.mp e), rfl⟩

/-- **The least time.**  It is one of those that were taken in. -/
theorem SumsUp.exists_least (h : SumsUp t taken keepsMin keepsMax)
    (small : sumOf (taken.map Prod.fst) < 2 ^ 64 - 1) (kept : ∀ x ∈ taken, keepsMin x.2 = true)
    (nonempty : taken ≠ []) :
    ∃ least ∈ taken.map Prod.fst, t.min = some least ∧
      ∀ time ∈ taken.map Prod.fst, least ≤ time := by
  have min := h.min
  rw [map_capped_filter kept small] at min
  have some : ((taken.map Prod.fst).map (·.toNat)).min? ≠ none :=
    mt List.min?_eq_none_iff.mp (by simpa using nonempty)
  obtain ⟨n, hn⟩ := Option.ne_none_iff_exists'.mp some
  obtain ⟨mem, le⟩ := List.min?_eq_some_iff.mp hn
  obtain ⟨least, ht, held, rfl⟩ := exists_time (min.trans hn) mem
  exact ⟨least, ht, held, fun time h =>
    UInt64.le_iff_toNat_le.mpr (le _ (List.mem_map_of_mem h))⟩

/-- **The greatest time.** -/
theorem SumsUp.exists_greatest (h : SumsUp t taken keepsMin keepsMax)
    (small : sumOf (taken.map Prod.fst) < 2 ^ 64 - 1) (kept : ∀ x ∈ taken, keepsMax x.2 = true)
    (nonempty : taken ≠ []) :
    ∃ greatest ∈ taken.map Prod.fst, t.max = some greatest ∧
      ∀ time ∈ taken.map Prod.fst, time ≤ greatest := by
  have max := h.max
  rw [map_capped_filter kept small] at max
  have some : ((taken.map Prod.fst).map (·.toNat)).max? ≠ none :=
    mt List.max?_eq_none_iff.mp (by simpa using nonempty)
  obtain ⟨n, hn⟩ := Option.ne_none_iff_exists'.mp some
  obtain ⟨mem, le⟩ := List.max?_eq_some_iff.mp hn
  obtain ⟨greatest, ht, held, rfl⟩ := exists_time (max.trans hn) mem
  exact ⟨greatest, ht, held, fun time h =>
    UInt64.le_iff_toNat_le.mpr (le _ (List.mem_map_of_mem h))⟩

/-- What is at most each time is at most their average. -/
theorem le_average {times : List UInt64} (nonempty : times ≠ []) {least : UInt64}
    (le : ∀ time ∈ times, least ≤ time) :
    least.toNat ≤ sumOf times / times.length := by
  rw [Nat.le_div_iff_mul_le (List.length_pos_of_ne_nil nonempty), mul_comm]
  have := List.card_nsmul_le_sum (times.map (·.toNat)) least.toNat fun n hn => by
    obtain ⟨time, ht, rfl⟩ := List.mem_map.mp hn
    exact UInt64.le_iff_toNat_le.mp (le time ht)
  simpa [sumOf] using this

theorem average_le {times : List UInt64} {greatest : UInt64} (le : ∀ time ∈ times, time ≤ greatest) :
    sumOf times / times.length ≤ greatest.toNat := by
  refine Nat.div_le_of_le_mul ?_
  have := List.sum_le_card_nsmul (times.map (·.toNat)) greatest.toNat fun n hn => by
    obtain ⟨time, ht, rfl⟩ := List.mem_map.mp hn
    exact UInt64.le_iff_toNat_le.mp (le time ht)
  simpa [sumOf] using this

/-- The order of words is that of what is shown of them. -/
theorem clamped_le {a b : UInt64} (h : a ≤ b) : clamped a ≤ clamped b :=
  min_le_min_right _ (Int.ofNat_le.mpr (UInt64.le_iff_toNat_le.mp h))

end

end Registry

namespace Probe
open Compiler History Registry

namespace Span

/-- The statistics of the times. -/
def minimum : Span → Statistic
  | life => .lifetimeMinimum
  | call => .execTimeMinimum

def average : Span → Statistic
  | life => .lifetimeAverage
  | call => .execTimeAverage

def maximum : Span → Statistic
  | life => .lifetimeMaximum
  | call => .execTimeMaximum

/-- The family of the times. -/
def category : Span → Category
  | life => .lifetimes
  | call => .execTimes

section
variable (s : Span) (r : Registry) (k : Key)

/-- The summary that a registry holds of a key, an empty one if it holds none. -/
def summary : Timing := ((s.series.timings r).get? k).getD {}

theorem value_minimum : r.value k s.minimum = clamped ((s.summary r k).min.getD 0) := by
  have empty (t : Option Timing) : t.bind (·.min) = (t.getD {}).min := by cases t <;> rfl
  rw [summary, ← empty]
  cases s <;> rfl

theorem value_average : r.value k s.average = clamped (s.summary r k).average := by
  have empty (t : Option Timing) : (t.map (·.average)).getD 0 = (t.getD {}).average := by
    cases t <;> rfl
  rw [summary, ← empty]
  cases s <;> rfl

theorem value_maximum : r.value k s.maximum = clamped ((s.summary r k).max.getD 0) := by
  have empty (t : Option Timing) : t.bind (·.max) = (t.getD {}).max := by cases t <;> rfl
  rw [summary, ← empty]
  cases s <;> rfl

end

theorem category_minimum (s : Span) : s.minimum.category = s.category := by cases s <;> rfl

theorem category_maximum (s : Span) : s.maximum.category = s.category := by cases s <;> rfl

/-- The options of the features keep the extrema that are requested. -/
theorem keeps_recordOptions (s : Span) (f : Features) :
    s.series.keepsMin f.normalized.recordOptions = s.minimum.requested f.normalized ∧
      s.series.keepsMax f.normalized.recordOptions = s.maximum.requested f.normalized := by
  rw [recordOptions_normalized]
  cases s <;> exact ⟨rfl, rfl⟩

end Span

variable {f : Features} {r : Registration} {l : Lifecycle} {lines : List String} {registry : Nat}

/-- The registration point is entered before a span that is timed is completed. -/
def RegisteredFirst (f : Features) (r : Registration) (l : Lifecycle) (lines : List String)
    (fs : List Firing) : Prop :=
  ∀ before g after, ∀ s : Span, fs = before ++ g :: after → s.timed f.normalized = true →
    s.Completes l lines before g → ∃ g' ∈ before, g'.point = registrationPoint r

/-- The times that the spans of a key took, in the order of their completions. -/
def times (p : Probe) (s : Span) (fs : List Firing) (k : Key) : List UInt64 :=
  (s.series.taken k (fs.flatMap p.events)).map Prod.fst

/-- What is listed of a span is requested, and times were taken in. -/
theorem requested_of_lists (h : Readable lines) (valid : ObjectName.validate r.objectName = .ok ())
    {fs : List Firing} {k : Key} {s : Span} {statistic : Statistic}
    (family : statistic.category = s.category)
    (listed : (((Probe.new (output f r l lines) registry).run {} fs).registry registry).Lists k
      statistic) :
    statistic.requested f.normalized = true ∧
      s.series.taken k (fs.flatMap (Probe.new (output f r l lines) registry).events) ≠ [] := by
  obtain ⟨requested, occurred, -⟩ := (exposes_run h valid fs k statistic).mp (lists_iff.mp listed)
  refine ⟨requested, List.length_pos_iff.mp ?_⟩
  have pos : 0 < occurrences (fs.flatMap (Probe.new (output f r l lines) registry).events) k
      statistic.category :=
    (occurrences_pos h valid fs k _).mpr ⟨wanted_of_requested requested, occurred⟩
  rw [family] at pos
  cases s <;> exact pos

/-- Where the registration point is entered first, every time comes under the options of the features. -/
theorem options_of_taken (h : Readable lines) (valid : ObjectName.validate r.objectName = .ok ())
    {fs : List Firing} (early : RegisteredFirst f r l lines fs) (s : Span) (k : Key) :
    ∀ x ∈ s.series.taken k (fs.flatMap (Probe.new (output f r l lines) registry).events),
      x.2 = f.normalized.recordOptions := by
  intro x hx
  obtain ⟨before, g, after, split, timed, completes, -, options⟩ := completion_of_taken h valid hx
  exact options (early before g after s split timed completes)

/-- It is entered first where a history begins with it: nothing is completed there. -/
theorem registeredFirst_cons {g : Firing} (there : g.point = registrationPoint r) (fs : List Firing) :
    RegisteredFirst f r l lines (g :: fs) := by
  intro before g' after s split timed completes
  cases before with
  | nil =>
      obtain ⟨rfl, -⟩ := List.cons.inj split
      have entry : g.point.phase = .entry := by rw [there]; rfl
      have turn := completes.1
      cases s with
      | life =>
          rw [Span.turn, if_pos entry] at turn
          split at turn
          · split at turn <;> cases turn
          · cases turn
      | call =>
          rw [Span.turn, decide_eq_true entry] at turn
          split at turn <;> cases turn
  | cons g'' before =>
      obtain ⟨rfl, -⟩ := List.cons.inj split
      exact ⟨g, List.mem_cons_self, there⟩

/-- **Least, average and greatest times.**  Let the registration point be entered before anything is completed.  Where
the times of a key neither overflow nor add up to the reserved word, their average is what is shown of it as far as
words show it; an extremum that is listed was set and shows one of the times, the least or the greatest of them all; and
the least is at most the average, and this at most the greatest, as words and as they are shown. -/
theorem extrema_of_registeredFirst {set : BindingSet}
    (h : (Compiler.new f r l).compile lines = .ok set)
    (valid : ObjectName.validate r.objectName = .ok ()) {fs : List Firing}
    (early : RegisteredFirst f r l lines fs) (s : Span) (k : Key)
    (small : sumOf ((Probe.new set registry).times s fs k) < 2 ^ 64 - 1)
    (few : ((Probe.new set registry).times s fs k).length < 2 ^ 64) :
    let p := Probe.new set registry
    let final := (p.run {} fs).registry registry
    let t := s.summary final k
    (t.average.toNat = sumOf (p.times s fs k) / (p.times s fs k).length ∧
        final.value k s.average = clamped t.average) ∧
      (final.Lists k s.minimum → ∃ least ∈ p.times s fs k,
        t.min = some least ∧ (∀ time ∈ p.times s fs k, least ≤ time) ∧ least ≤ t.average ∧
          final.value k s.minimum = clamped least ∧
            final.value k s.minimum ≤ final.value k s.average) ∧
      (final.Lists k s.maximum → ∃ greatest ∈ p.times s fs k,
        t.max = some greatest ∧ (∀ time ∈ p.times s fs k, time ≤ greatest) ∧
          t.average ≤ greatest ∧ final.value k s.maximum = clamped greatest ∧
            final.value k s.average ≤ final.value k s.maximum) := by
  obtain ⟨readable, rfl⟩ := readable_of_compile h
  intro p final t
  have run : final = (Registry.empty.run (fs.flatMap p.events)).2 := registry_run_new _ fs
  have options : ∀ x ∈ s.series.taken k (fs.flatMap p.events), x.2 = f.normalized.recordOptions :=
    options_of_taken readable valid early s k
  have sums : SumsUp t (s.series.taken k (fs.flatMap p.events)) s.series.keepsMin
      s.series.keepsMax := by
    change SumsUp (s.summary final k) _ _ _
    rw [run]
    exact (s.series.sumsUp_run (fs.flatMap p.events) k).1
  have average : t.average.toNat = sumOf (p.times s fs k) / (p.times s fs k).length := by
    rw [times, List.length_map]
    exact sums.toNat_average small (by rwa [times, List.length_map] at few)
  refine ⟨⟨average, s.value_average final k⟩, fun listed => ?_, fun listed => ?_⟩
  · obtain ⟨requested, nonempty⟩ := requested_of_lists readable valid s.category_minimum listed
    obtain ⟨least, mem, held, le⟩ := sums.exists_least small
      (fun x hx => by rw [options x hx, (s.keeps_recordOptions f).1, requested]) nonempty
    have below : least ≤ t.average := by
      rw [UInt64.le_iff_toNat_le, average]
      exact le_average (List.ne_nil_of_mem mem) le
    have value : final.value k s.minimum = clamped least := by
      rw [s.value_minimum, held]
      rfl
    refine ⟨least, mem, held, le, below, value, ?_⟩
    rw [value, s.value_average]
    exact clamped_le below
  · obtain ⟨requested, nonempty⟩ := requested_of_lists readable valid s.category_maximum listed
    obtain ⟨greatest, mem, held, le⟩ := sums.exists_greatest small
      (fun x hx => by rw [options x hx, (s.keeps_recordOptions f).2, requested]) nonempty
    have above : t.average ≤ greatest := by
      rw [UInt64.le_iff_toNat_le, average]
      exact average_le le
    have value : final.value k s.maximum = clamped greatest := by
      rw [s.value_maximum, held]
      rfl
    refine ⟨greatest, mem, held, le, above, value, ?_⟩
    rw [value, s.value_average]
    exact clamped_le above

/-- Two lives of three and of seven units after the registration. -/
theorem extrema_two_lives :
    let f : Features := { lifetimeMin := true, lifetimeMax := true }
    let r : Registration := ⟨"Helper", "Main", "main", "register", "app:type=Statistics"⟩
    let lines := ["A#f"]
    let k := Key.entity "A"
    let at_time (now : Nat) (entity operation : String) (phase : Phase) : Firing :=
      ⟨⟨⟨entity, operation⟩, phase⟩, ⟨1, 7⟩, fun n => .ofNat (now + n)⟩
    let fs := [at_time 0 "Main" "main" .entry, at_time 10 "A" "<init>" .entry,
      at_time 13 "A" "run" .exit, at_time 20 "A" "<init>" .entry, at_time 27 "A" "run" .exit]
    let p := Probe.new (output f r {} lines) 0
    let final := (p.run {} fs).registry 0
    ((Compiler.new f r).compile lines = .ok (output f r {} lines) ∧
        ObjectName.validate r.objectName = .ok () ∧ RegisteredFirst f r {} lines fs ∧
          p.times .life fs k = [3, 7]) ∧
      (final.Lists k .lifetimeMinimum ∧ final.value k .lifetimeMinimum = 3) ∧
        (final.Lists k .lifetimeMaximum ∧ final.value k .lifetimeMaximum = 7) ∧
          final.value k .lifetimeAverage = 5 := by
  intro f r lines k at_time fs p final
  have compiled : (Compiler.new f r).compile lines = .ok (output f r {} lines) :=
    compile_of_readable f r {} rfl
  have valid : ObjectName.validate r.objectName = .ok () := by decide +kernel
  have early : RegisteredFirst f r {} lines fs := registeredFirst_cons rfl _
  have times : (Probe.new (output f r {} lines) 0).times .life fs k = [3, 7] := by decide +kernel
  have main := @extrema_of_registeredFirst f r {} lines 0 _ compiled valid fs early .life k
    (by rw [times]; decide) (by rw [times]; decide)
  dsimp only at main
  rw [times] at main
  obtain ⟨⟨average, shown⟩, minimum, maximum⟩ := main
  have listsMin : final.Lists k .lifetimeMinimum := lists_iff.mpr (by decide +kernel)
  have listsMax : final.Lists k .lifetimeMaximum := lists_iff.mpr (by decide +kernel)
  obtain ⟨least, mem, -, least_le, -, leastShown, -⟩ := minimum listsMin
  obtain ⟨greatest, mem', -, le_greatest, -, greatestShown, -⟩ := maximum listsMax
  have three : least = 3 := by
    rcases List.mem_pair.mp mem with rfl | rfl
    · rfl
    · exact absurd (least_le 3 (by simp)) (by decide)
  have seven : greatest = 7 := by
    rcases List.mem_pair.mp mem' with rfl | rfl
    · exact absurd (le_greatest 7 (by simp)) (by decide)
    · rfl
  have five : (Span.life.summary final k).average = 5 := UInt64.toNat_inj.mp average
  exact ⟨⟨compiled, valid, early, times⟩, ⟨listsMin, leastShown.trans (by rw [three]; rfl)⟩,
    ⟨listsMax, greatestShown.trans (by rw [seven]; rfl)⟩, shown.trans (by rw [five]; rfl)⟩

end Probe

end Metering
