import Metering.Proofs.Attribute.Lookup
import Metering.Proofs.Probe.Extrema

/-!
# Proofs — Attribute — Growth

A history and what may follow it.  What is listed stays listed: keys are never forgotten, and options are fixed once,
when none of the optional statistics was kept before (`exposes_append`).  Counts only grow, as long as they do not
wrap, and so do the numbers of the times that were taken in, since the times of the whole history begin with those of
its beginning (`taken_prefix_append`).  For the same reason the greatest of the times that were tracked never
decreases, and the least never increases.  The least shows as zero until a time was tracked; so it is only from then
on that it cannot grow.
-/

namespace Metering

/-- A statistic that counts events. -/
def Statistic.IsCount : Statistic → Prop
  | instancesCount | calls | exceptionExits => True
  | _ => False

namespace Registry
open Probe (Span)

variable {events later : List Event}

/-! ### What stays -/

theorem Series.taken_prefix_append (s : Series) (k : Key) (events later : List Event) :
    s.taken k events <+: s.taken k (events ++ later) := by
  induction later using List.reverseRecOn with
  | nil => rw [List.append_nil]
  | append_singleton later e ih =>
      rw [← List.append_assoc, s.taken_concat]
      exact ih.trans (List.prefix_append _ _)

theorem occurrences_le_append (events later : List Event) (k : Key) (category : Category) :
    occurrences events k category ≤ occurrences (events ++ later) k category := by
  cases category with
  | lifetimes => exact (lifetimeSeries.taken_prefix_append k events later).length_le
  | execTimes => exact (execTimeSeries.taken_prefix_append k events later).length_le
  | instances | calls | exceptionExits =>
      rw [occurrences, occurrences, List.countP_append]
      exact Nat.le_add_right _ _

/-- A statistic that is enabled while no options are fixed is always enabled, and fixed options stay. -/
theorem isEnabled_append {s : Statistic} (h : s.isEnabled (inForce events) = true) (later : List Event) :
    s.isEnabled (inForce (events ++ later)) = true := by
  rw [inForce, List.findSome?_append]
  rw [inForce] at h
  cases fixed : events.findSome? fun e => fixes? e.operation with
  | some options =>
      rw [fixed] at h
      exact h
  | none =>
      rw [fixed] at h
      cases s <;> first | rfl | cases h

/-- **What is exposed stays exposed.** -/
theorem exposes_append {k : Key} {s : Statistic} (h : (empty.run events).2.exposes k s = true)
    (later : List Event) : (empty.run (events ++ later)).2.exposes k s = true := by
  rw [exposes, Bool.and_eq_true, options_run, contains_run, decide_eq_true_iff] at h ⊢
  exact ⟨isEnabled_append h.1 later, h.2.trans_le (occurrences_le_append events later k s.category)⟩

/-! ### Counts -/

theorem Series.length_taken_le (s : Series) (k : Key) (events : List Event) :
    (s.taken k events).length ≤ events.length :=
  (List.length_filterMap_le _ _).trans_eq (length_entries events)

/-- No more events happen for a key than there are. -/
theorem occurrences_le_length (events : List Event) (k : Key) (category : Category) :
    occurrences events k category ≤ events.length := by
  cases category with
  | lifetimes => exact lifetimeSeries.length_taken_le k events
  | execTimes => exact execTimeSeries.length_taken_le k events
  | instances | calls | exceptionExits => exact List.countP_le_length

/-- A count is the number of the events of its family, as long as it does not wrap. -/
theorem value_of_isCount {s : Statistic} (count : s.IsCount) {events : List Event}
    (short : events.length < 2 ^ 64) (k : Key) :
    (empty.run events).2.value k s = min (occurrences events k s.category : Int) greatestSigned := by
  have shown {w : UInt64} {category : Category}
      (total : w.toNat = occurrences events k category % 2 ^ 64) :
      clamped w = min (occurrences events k category : Int) greatestSigned := by
    rw [clamped, total, Nat.mod_eq_of_lt ((occurrences_le_length events k category).trans_lt short)]
  cases s with
  | instancesCount =>
      exact shown (instanceTally.total_run_of_operation instanceBegun (fun _ _ => rfl) events k).1
  | calls => exact shown (callTally.total_run_of_operation callCounted (fun _ _ => rfl) events k).1
  | exceptionExits =>
      exact shown (exitTally.total_run_of_operation exitCounted (fun _ _ => rfl) events k).1
  | _ => cases count

/-! ### Extrema -/

/-- More numbers have no lesser greatest one. -/
theorem max?_getD_mono {xs ys : List Nat} (h : xs ⊆ ys) : xs.max?.getD 0 ≤ ys.max?.getD 0 := by
  cases hx : xs.max? with
  | none => exact Nat.zero_le _
  | some greatest => exact List.le_max?_getD_of_mem (h (List.max?_mem hx))

/-- Nor a greater least one, if there were any before. -/
theorem min?_getD_anti {xs ys : List Nat} (h : xs ⊆ ys) (nonempty : xs ≠ []) :
    ys.min?.getD 0 ≤ xs.min?.getD 0 := by
  obtain ⟨least, hx⟩ := Option.ne_none_iff_exists'.mp (mt List.min?_eq_none_iff.mp nonempty)
  rw [hx]
  exact List.min?_getD_le_of_mem (h (List.min?_mem hx))

theorem toNat_getD (held : Option UInt64) : (held.getD 0).toNat = (held.map (·.toNat)).getD 0 := by
  cases held <;> rfl

/-- What extrema see of times that may be followed by others. -/
theorem tracked_subset {taken taken' : List (UInt64 × RecordOptions)} (h : taken <+: taken')
    (keeps : RecordOptions → Bool) :
    (taken.filter (keeps ·.2)).map (capped ·.1) ⊆ (taken'.filter (keeps ·.2)).map (capped ·.1) :=
  List.map_subset _ (List.filter_subset _ h.subset)

section
variable {t t' : Timing} {taken taken' : List (UInt64 × RecordOptions)}
  {keepsMin keepsMax : RecordOptions → Bool}

theorem SumsUp.max_le (h : SumsUp t taken keepsMin keepsMax) (h' : SumsUp t' taken' keepsMin keepsMax)
    (follows : taken <+: taken') : t.max.getD 0 ≤ t'.max.getD 0 := by
  rw [UInt64.le_iff_toNat_le, toNat_getD, toNat_getD, h.max, h'.max]
  exact max?_getD_mono (tracked_subset follows keepsMax)

theorem SumsUp.min_le (h : SumsUp t taken keepsMin keepsMax) (h' : SumsUp t' taken' keepsMin keepsMax)
    (follows : taken <+: taken') (tracked : ∃ x ∈ taken, keepsMin x.2 = true) :
    t'.min.getD 0 ≤ t.min.getD 0 := by
  rw [UInt64.le_iff_toNat_le, toNat_getD, toNat_getD, h.min, h'.min]
  obtain ⟨x, mem, kept⟩ := tracked
  exact min?_getD_anti (tracked_subset follows keepsMin)
    (List.ne_nil_of_mem (List.mem_map_of_mem (List.mem_filter.mpr ⟨mem, kept⟩)))

theorem SumsUp.completed_le (h : SumsUp t taken keepsMin keepsMax)
    (h' : SumsUp t' taken' keepsMin keepsMax) (follows : taken <+: taken')
    (few : taken'.length < 2 ^ 64) : t.completed ≤ t'.completed := by
  rw [UInt64.le_iff_toNat_le, h.completed, h'.completed, Nat.mod_eq_of_lt few,
    Nat.mod_eq_of_lt (follows.length_le.trans_lt few)]
  exact follows.length_le

end

/-! ### What may follow -/

theorem sumsUp_summary (span : Span) (events : List Event) (k : Key) :
    SumsUp (span.summary (empty.run events).2 k) (span.series.taken k events) span.series.keepsMin
      span.series.keepsMax :=
  (span.series.sumsUp_run events k).1

/-- **Growth.**  Let a history be continued in any way, and options be fixed anywhere in it.  Every name that is
listed stays listed.  As long as the whole history is too short for a count to wrap, no count of events decreases, nor
does the number of the times that were taken in.  A greatest time never decreases, and a least one never increases
once a time was taken in while the least was kept. -/
theorem values_of_continuation (events later : List Event) :
    let earlier := (empty.run events).2
    let r := (empty.run (events ++ later)).2
    (∀ name ∈ earlier.attributeNames, name ∈ r.attributeNames) ∧
      ((events ++ later).length < 2 ^ 64 → ∀ k,
        (∀ s : Statistic, s.IsCount → earlier.value k s ≤ r.value k s) ∧
          ∀ span : Span, (span.summary earlier k).completed ≤ (span.summary r k).completed) ∧
      ∀ k, ∀ span : Span, earlier.value k span.maximum ≤ r.value k span.maximum ∧
        ((∃ x ∈ span.series.taken k events, span.series.keepsMin x.2 = true) →
          r.value k span.minimum ≤ earlier.value k span.minimum) := by
  intro earlier r
  refine ⟨fun name listed => ?_, fun short k => ⟨fun s count => ?_, fun span => ?_⟩,
    fun k span => ⟨?_, fun tracked => ?_⟩⟩
  · obtain ⟨k, s, named, exposed⟩ := mem_attributeNames_iff.mp listed
    exact mem_attributeNames_iff.mpr ⟨k, s, named, exposes_append exposed later⟩
  · have short' : events.length < 2 ^ 64 := by
      rw [List.length_append] at short
      omega
    rw [value_of_isCount count short', value_of_isCount count short]
    exact min_le_min_right _ (Int.ofNat_le.mpr (occurrences_le_append events later k s.category))
  · exact (sumsUp_summary span events k).completed_le (sumsUp_summary span (events ++ later) k)
      (span.series.taken_prefix_append k events later)
      ((span.series.length_taken_le k (events ++ later)).trans_lt short)
  · rw [span.value_maximum, span.value_maximum]
    exact clamped_le ((sumsUp_summary span events k).max_le (sumsUp_summary span (events ++ later) k)
      (span.series.taken_prefix_append k events later))
  · rw [span.value_minimum, span.value_minimum]
    exact clamped_le ((sumsUp_summary span events k).min_le (sumsUp_summary span (events ++ later) k)
      (span.series.taken_prefix_append k events later) tracked)

/-- A call of five units, and then one of three. -/
theorem values_of_shorter_call :
    let k := Key.operation "A" "f"
    let options : RecordOptions := { execTimeMin := true, execTimeMax := true }
    let events : List Event := [⟨0, .configure options⟩, ⟨0, .incrementCalls k⟩, ⟨0, .recordCallStart k 1⟩,
      ⟨5, .recordCallEnd k 1⟩]
    let later : List Event := [⟨6, .incrementCalls k⟩, ⟨6, .recordCallStart k 1⟩,
      ⟨9, .incrementExceptionExits k 1⟩]
    let earlier := (empty.run events).2
    let r := (empty.run (events ++ later)).2
    ((events ++ later).length < 2 ^ 64 ∧
        ∃ x ∈ Span.call.series.taken k events, Span.call.series.keepsMin x.2 = true) ∧
      "A.f.exectime.minimum" ∈ r.attributeNames ∧
      earlier.value k .calls ≤ r.value k .calls ∧
      r.value k .execTimeMinimum ≤ earlier.value k .execTimeMinimum ∧
      earlier.value k .execTimeMinimum = 5 ∧ r.value k .execTimeMinimum = 3 := by
  intro k options events later earlier r
  have short : (events ++ later).length < 2 ^ 64 := by decide
  have tracked : ∃ x ∈ Span.call.series.taken k events, Span.call.series.keepsMin x.2 = true := by
    decide +kernel
  obtain ⟨stays, counts, extrema⟩ := values_of_continuation events later
  have listed : "A.f.exectime.minimum" ∈ earlier.attributeNames :=
    mem_attributeNames_iff.mpr ⟨k, .execTimeMinimum, by decide +kernel, by decide +kernel⟩
  exact ⟨⟨short, tracked⟩, stays _ listed, (counts short k).1 .calls trivial, (extrema k .call).2 tracked,
    by decide +kernel, by decide +kernel⟩

end Registry

end Metering
