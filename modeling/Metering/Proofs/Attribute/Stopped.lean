import Metering.Proofs.Attribute.Lookup
import Metering.Proofs.Registry.Reads

/-!
# Proofs — Attribute — Stopped

The values of attributes against what they stand for, said in integers (`quantity`).  A value is a signed word, so it
should be its quantity, or the greatest or the least word where the quantity is out of their range (`stopped`).  It is
for all statistics but one: each reads one word, and this stops at the greatest signed one (`clamped_eq_stopped`).

The live instances are a difference of two totals, and each of these is read as a signed word before they are subtracted.
A total from `2 ^ 63` on is then off by `2 ^ 64`.  Where both are, it does not matter; where one is, the difference has
the wrong sign (`instanceLive_of_not_level`).  So the live instances are shown right exactly when the totals are on the
same side of `2 ^ 63` (`Level`), and this is not so in every history (`live_of_many`).
-/

namespace Metering.Registry

/-- An integer as a signed word, which stops at the least and the greatest. -/
def stopped (n : Int) : Int := max leastSigned (min n greatestSigned)

/-- What a statistic of a key stands for.  What was never recorded, and an extremum that is unset, count as zero. -/
def quantity (r : Registry) (key : Key) : Statistic → Int
  | .instancesCount => (r.instanceTotal key).toNat
  | .instancesLive => (r.instanceTotal key).toNat - (r.finished.total key).toNat
  | .lifetimeMinimum => (((r.lifetime? key).bind (·.min)).getD 0).toNat
  | .lifetimeAverage => (((r.lifetime? key).map Timing.average).getD 0).toNat
  | .lifetimeMaximum => (((r.lifetime? key).bind (·.max)).getD 0).toNat
  | .calls => (r.callCount key).toNat
  | .execTimeMinimum => (((r.execTime? key).bind (·.min)).getD 0).toNat
  | .execTimeAverage => (((r.execTime? key).map Timing.average).getD 0).toNat
  | .execTimeMaximum => (((r.execTime? key).bind (·.max)).getD 0).toNat
  | .exceptionExits => (r.exceptionExitCount key).toNat

/-- The totals of the instances of a key that began and ended are on the same side of `2 ^ 63`. -/
def Level (r : Registry) (key : Key) : Prop :=
  (r.instanceTotal key).toNat < 2 ^ 63 ↔ (r.finished.total key).toNat < 2 ^ 63

/-! ### One word -/

theorem clamped_eq_stopped (w : UInt64) : clamped w = stopped w.toNat := by
  rw [clamped, stopped, leastSigned, greatestSigned]
  omega

theorem value_eq_stopped (r : Registry) (k : Key) {s : Statistic} (h : s ≠ .instancesLive) :
    r.value k s = stopped (r.quantity k s) := by
  cases s with
  | instancesLive => exact absurd rfl h
  | _ => exact clamped_eq_stopped _

/-! ### The difference of two -/

/-- A word as a signed one is off by `2 ^ 64` from `2 ^ 63` on. -/
theorem toInt_toInt64 (w : UInt64) :
    w.toInt64.toInt = if w.toNat < 2 ^ 63 then (w.toNat : Int) else w.toNat - 2 ^ 64 := by
  change w.toBitVec.toInt = _
  rw [BitVec.toInt_eq_toNat_cond]
  change (if 2 * w.toNat < 2 ^ 64 then _ else _) = _
  split <;> split <;> first | rfl | omega

section
variable {r : Registry} {k : Key}

theorem instanceLive_of_level (h : r.Level k) :
    r.instanceLive k = stopped (r.quantity k .instancesLive) := by
  rw [Level, instanceTotal] at h
  rw [instanceLive, stopped, quantity, instanceTotal, toInt_toInt64, toInt_toInt64]
  by_cases below : (r.instances.total k).toNat < 2 ^ 63
  · rw [if_pos below, if_pos (h.mp below)]
  · rw [if_neg below, if_neg (mt h.mpr below)]
    congr 2
    omega

/-- **The wrong sign.**  Where the totals are not level, the live instances show as negative when they are not. -/
theorem instanceLive_of_not_level (h : ¬ r.Level k) :
    r.instanceLive k < 0 ↔ 0 ≤ r.quantity k .instancesLive := by
  have total_lt := (r.instances.total k).toNat_lt
  have finished_lt := (r.finished.total k).toNat_lt
  rw [Level, instanceTotal] at h
  rw [instanceLive, quantity, instanceTotal, toInt_toInt64, toInt_toInt64, leastSigned,
    greatestSigned]
  by_cases below : (r.instances.total k).toNat < 2 ^ 63
  · have above : ¬ (r.finished.total k).toNat < 2 ^ 63 := fun hf => h (iff_of_true below hf)
    rw [if_pos below, if_neg above]
    omega
  · have under : (r.finished.total k).toNat < 2 ^ 63 := by
      by_contra hf
      exact h (iff_of_false below hf)
    rw [if_neg below, if_pos under]
    omega

/-- The sign stays when an integer stops. -/
theorem stopped_nonneg_iff {n : Int} : 0 ≤ stopped n ↔ 0 ≤ n := by
  rw [stopped, leastSigned, greatestSigned]
  omega

theorem instanceLive_eq_stopped_iff :
    r.instanceLive k = stopped (r.quantity k .instancesLive) ↔ r.Level k := by
  refine ⟨fun shown => ?_, instanceLive_of_level⟩
  by_contra apart
  have sign := instanceLive_of_not_level apart
  rw [shown, ← not_le, stopped_nonneg_iff] at sign
  exact not_iff_self sign

end

/-- **Values.**  In every state, each attribute that is listed is in the snapshot with its value, and is got with it if
its key is not blank.  The value is the quantity, stopped at the signed words, for every statistic but the live
instances.  For these it is exactly when the totals of what began and ended are on the same side of `2 ^ 63`; and where
at least as many began as ended, it is then alone not negative. -/
theorem value_of_listed (r : Registry) {a : Attribute} (listed : a ∈ r.attributes) :
    let v := r.value a.key a.statistic
    ByName.get? a.name r.snapshot = some v ∧
      (a.key ≠ Key.blank → r.get a.name = .ok v) ∧
      (a.statistic ≠ .instancesLive → v = stopped (r.quantity a.key a.statistic)) ∧
      (a.statistic = .instancesLive →
        (v = stopped (r.quantity a.key a.statistic) ↔ r.Level a.key) ∧
        ((r.finished.total a.key).toNat ≤ (r.instanceTotal a.key).toNat →
          (0 ≤ v ↔ r.Level a.key))) := by
  intro v
  obtain ⟨exposed, named⟩ := mem_attributes_iff.mp listed
  have name : a.name = a.statistic.nameOf a.key := congrArg Attribute.name named
  refine ⟨get?_snapshot_eq_some_iff.mpr ⟨_, _, name, exposed, rfl⟩,
    fun hk => get_eq_ok_iff.mpr ⟨_, _, hk, name, exposed, rfl⟩, r.value_eq_stopped a.key, fun live => ?_⟩
  have shown : v = r.instanceLive a.key := congrArg (r.value a.key) live
  rw [shown, live]
  refine ⟨instanceLive_eq_stopped_iff, fun balance => ⟨fun nonneg => ?_, fun level => ?_⟩⟩
  · by_contra apart
    have remaining : 0 ≤ r.quantity a.key .instancesLive := sub_nonneg.mpr (Int.ofNat_le.mpr balance)
    exact absurd ((instanceLive_of_not_level apart).mpr remaining) (not_lt.mpr nonneg)
  · rw [instanceLive_of_level level, stopped_nonneg_iff]
    exact sub_nonneg.mpr (Int.ofNat_le.mpr balance)

/-- Three instances, one of which has ended. -/
theorem value_of_three_instances :
    let k := Key.entity "A"
    let r := (empty.run [⟨0, .incrementInstances k⟩, ⟨0, .incrementInstances k⟩,
      ⟨0, .incrementInstances k⟩, ⟨1, .decrementLive k⟩]).2
    Attribute.of .instancesLive k ∈ r.attributes ∧
      ByName.get? "A.instances.live" r.snapshot = some 2 ∧ r.Level k := by
  intro k r
  have listed : Attribute.of .instancesLive k ∈ r.attributes :=
    mem_attributes_iff.mpr ⟨by decide +kernel, rfl⟩
  obtain ⟨found, -, -, live⟩ := r.value_of_listed listed
  obtain ⟨exact_iff, -⟩ := live rfl
  have name : (Attribute.of .instancesLive k).name = "A.instances.live" := by decide +kernel
  have two : r.value k .instancesLive = 2 := by decide +kernel
  have level : r.Level k := exact_iff.mp (by decide +kernel)
  rw [name] at found
  exact ⟨listed, found.trans (congrArg some two), level⟩

/-! ### A history that is not level -/

/-- A history in which so many instances of a key begin. -/
def manyBegun (k : Key) (n : Nat) : List Event := List.replicate n ⟨0, .incrementInstances k⟩

theorem totals_manyBegun (k : Key) (n : Nat) :
    let r := (empty.run (manyBegun k n)).2
    (r.instanceTotal k).toNat = n % 2 ^ 64 ∧ r.contains .instances k = decide (0 < n) ∧
      r.finished.total k = 0 := by
  intro r
  have all : (manyBegun k n).countP (fun e => instanceBegun e.operation = some k) = n := by
    have one : instanceBegun (.incrementInstances k) = some k := rfl
    rw [manyBegun, List.countP_replicate, if_pos (decide_eq_true one)]
  have none : finishedTally.count k (manyBegun k n) = 0 := by
    refine List.countP_eq_zero.mpr fun x hx => ?_
    have mem : x.operation ∈ (manyBegun k n).map (·.operation) := by
      rw [← map_operation_entries]
      exact List.mem_map_of_mem hx
    rw [manyBegun, List.map_replicate] at mem
    have operation := List.eq_of_mem_replicate mem
    simp [Tally.key?, finishedTally, operation, instanceFinished]
  obtain ⟨total, has⟩ := instanceTally.total_run_of_operation instanceBegun (fun _ _ => rfl) (manyBegun k n) k
  rw [all] at total has
  refine ⟨total, has, ?_⟩
  have ended := (finishedTally.total_run (manyBegun k n) k).1
  rw [none] at ended
  exact ended

/-- When `2 ^ 63` instances have begun and none has ended, the live ones show as the least signed word, where the
greatest should stand. -/
theorem live_of_many :
    let k := Key.entity "A"
    let r := (empty.run (manyBegun k (2 ^ 63))).2
    (r.instanceTotal k).toNat = 2 ^ 63 ∧ r.finished.total k = 0 ∧
      stopped (r.quantity k .instancesLive) = 2 ^ 63 - 1 ∧
      r.get "A.instances.live" = .ok (-2 ^ 63) ∧
      ByName.get? "A.instances.live" r.snapshot = some (-2 ^ 63) := by
  intro k r
  obtain ⟨total, has, ended⟩ := totals_manyBegun k (2 ^ 63)
  have name : "A.instances.live" = Statistic.instancesLive.nameOf k := by decide +kernel
  have exposed : r.exposes k .instancesLive = true := by
    change (true && r.contains .instances k) = true
    rw [Bool.true_and, has]
    exact decide_eq_true (Nat.two_pow_pos 63)
  have least : r.value k .instancesLive = -2 ^ 63 := by
    change r.instanceLive k = _
    rw [instanceTotal] at total
    rw [instanceLive, toInt_toInt64, toInt_toInt64, total, ended]
    decide
  refine ⟨total, ended, ?_, get_eq_ok_iff.mpr ⟨k, _, by decide +kernel, name, exposed, least.symm⟩,
    get?_snapshot_eq_some_iff.mpr ⟨k, _, name, exposed, least.symm⟩⟩
  rw [quantity, total, ended]
  decide

end Metering.Registry
