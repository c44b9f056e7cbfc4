import Mathlib.Algebra.BigOperators.Ring.Finset
import Metering.Proofs.Probe.Lives

/-!
# Proofs — Probe — Instances

What orderly firings leave in the registry where instances are counted (`instances_of_orderly`): the instances of a key
are the objects that were born, and those that live are the ones that have not ended, whether lives are timed or not.
Where they are timed, the creations that wait are the instances that live, all keys together, as soon as no object is
inside its constructor.
-/

namespace Metering

/-- The numbers of times that elements of two lists occur, each less the other, sum to the difference of the lengths. -/
theorem History.sum_count_sub_count {α : Type} [DecidableEq α] {ks xs ys : List α} (hn : ks.Nodup)
    (hx : ∀ x ∈ xs, x ∈ ks) (hy : ∀ y ∈ ys, y ∈ ks) :
    (ks.map fun k => (xs.count k : Int) - ys.count k).sum = xs.length - ys.length := by
  have all {zs : List α} (hz : ∀ z ∈ zs, z ∈ ks) : ∑ k ∈ ks.toFinset, zs.count k = zs.length := by
    have card : ∑ k ∈ ks.toFinset, Multiset.count k (zs : Multiset α) =
        Multiset.card (zs : Multiset α) :=
      Multiset.sum_count_eq_card fun z hm => List.mem_toFinset.mpr (hz z (Multiset.mem_coe.mp hm))
    simpa only [Multiset.coe_count, Multiset.coe_card] using card
  rw [← List.sum_toFinset _ hn, Finset.sum_sub_distrib, ← Nat.cast_sum, ← Nat.cast_sum, all hx,
    all hy]

namespace Registry

/-- The instances that live, when the totals are small enough to be signed words. -/
theorem instanceLive_of_totals {r : Registry} {k : Key} {m n : Nat}
    (hm : r.instances.total k = .ofNat m) (hn : r.finished.total k = .ofNat n) (m_lt : m < 2 ^ 63)
    (n_lt : n < 2 ^ 63) : r.instanceLive k = (m : Int) - n := by
  have signed {i : Nat} (hi : i < 2 ^ 63) : (UInt64.ofNat i).toInt64.toInt = i :=
    Int64.toInt_ofNat_of_lt hi
  rw [instanceLive, hm, hn, signed m_lt, signed n_lt, leastSigned, greatestSigned]
  omega

/-- The live instances of all keys, when they are what has begun less what has ended. -/
theorem sum_instanceLive {r : Registry} {begun ended : List Key}
    (live : ∀ k, r.instanceLive k = (begun.count k : Int) - ended.count k)
    (keys : ∀ k, k ∈ r.keys .instances ↔ k ∈ begun) (sub : ∀ k ∈ ended, k ∈ begun) :
    ((r.keys .instances).map r.instanceLive).sum = (begun.length : Int) - ended.length := by
  rw [funext live]
  exact History.sum_count_sub_count (r.nodup_keys .instances) (fun k hk => (keys k).mpr hk)
    fun k hk => (keys k).mpr (sub k hk)

end Registry

namespace Probe
open Compiler History Registry

variable {f : Features} {r : Registration} {l : Lifecycle} {lines : List String} {registry : Nat}

theorem reachedBy_eq_count (es : List String) (s : Stage) (fs : List Firing) (k : Key) :
    reachedBy l es s fs k = ((reached l es s fs).map fun o => Key.entity o.1).count k := by
  rw [List.count, List.countP_map, reachedBy]
  rfl

theorem reachedBy_le_length (es : List String) (s : Stage) (fs : List Firing) (k : Key) :
    reachedBy l es s fs k ≤ fs.length :=
  List.countP_le_length.trans (List.length_filterMap_le _ _)

/-- **Instances and lives.**  Orderly firings leave the totals of what was born and of what has ended. -/
theorem totals_of_orderly (h : Readable lines) (counts : f.instanceCounts = true)
    (apart : l.constructor ≠ l.completion) {fs : List Firing}
    (orderly : Orderly l (entities lines) fs) (k : Key) :
    let final := ((Probe.new (output f r l lines) registry).run {} fs).registry registry
    final.instances.total k = .ofNat (reachedBy l (entities lines) .born fs k) ∧
      final.finished.total k = .ofNat (reachedBy l (entities lines) .ended fs k) := by
  intro final
  let p := Probe.new (output f r l lines) registry
  have reaches : Reaches (fs.flatMap p.asked) final := p.reaches_run_new fs
  have turn (id : UInt64) : Alternating (lifeAccount.marks id (fs.flatMap p.asked)) :=
    alternating_of_orderly h counts apart fs orderly id
  refine ⟨?_, ?_⟩
  · rw [(instances_of_reaches reaches k).1, countP_eq_some, instanceBegun_asked h counts apart,
      reachedBy_eq_count]
  · have settled : lifeAccount.settled k (fs.flatMap p.asked) =
        (fs.flatMap p.asked).countP fun op => instanceEnded op = some k :=
      lifeAccount.settled_of_alternating turn k
    rw [countP_eq_some, instanceEnded_asked h counts apart, ← reachedBy_eq_count] at settled
    exact settled ▸ lifeAccount.total_of_reaches reaches k

/-- Where lives are timed, what waits and what has ended has begun. -/
theorem pendingCreations_of_orderly (h : Readable lines) (counts : f.instanceCounts = true)
    (apart : l.constructor ≠ l.completion) (timed : f.normalized.lifetimeAvg = true)
    {fs : List Firing} (orderly : Orderly l (entities lines) fs) :
    let final := ((Probe.new (output f r l lines) registry).run {} fs).registry registry
    final.pendingCreations + (reached l (entities lines) .ended fs).length =
      (reached l (entities lines) .begun fs).length := by
  intro final
  let p := Probe.new (output f r l lines) registry
  have reaches : Reaches (fs.flatMap p.asked) final := p.reaches_run_new fs
  have turn (id : UInt64) : Alternating (lifeAccount.marks id (fs.flatMap p.asked)) :=
    alternating_of_orderly h counts apart fs orderly id
  have size : final.pendingCreations = (lifeAccount.opened (fs.flatMap p.asked)).length :=
    lifeAccount.size_of_reaches reaches
  have balance : _ + ((fs.flatMap p.asked).filterMap lifeEnded).length =
      ((fs.flatMap p.asked).filterMap lifeBegun).length := lifeAccount.length_opened turn
  rwa [← size, lifeEnded_asked h counts apart fs timed, lifeBegun_asked h counts apart fs timed,
    List.length_map, List.length_map] at balance

/-- The keys that have instances are those of the objects that were born. -/
theorem mem_keys_instances (h : Readable lines) (counts : f.instanceCounts = true)
    (apart : l.constructor ≠ l.completion) (fs : List Firing) (k : Key) :
    k ∈ (((Probe.new (output f r l lines) registry).run {} fs).registry registry).keys .instances ↔
      k ∈ (reached l (entities lines) .born fs).map fun o => Key.entity o.1 := by
  let p := Probe.new (output f r l lines) registry
  have reaches : Reaches (fs.flatMap p.asked) ((p.run {} fs).registry registry) :=
    p.reaches_run_new fs
  rw [mem_keys_iff, Registry.contains, (instances_of_reaches reaches k).2, decide_eq_true_iff,
    countP_eq_some, instanceBegun_asked h counts apart, List.count_pos_iff]

/-- A key of which an object has ended is one of which an object was born. -/
theorem keys_of_ended {es : List String} {fs : List Firing} (orderly : Orderly l es fs) :
    ∀ k ∈ (reached l es .ended fs).map fun o => Key.entity o.1,
      k ∈ (reached l es .born fs).map fun o => Key.entity o.1 := by
  intro k hk
  obtain ⟨o, ho, rfl⟩ := List.mem_map.mp hk
  exact List.mem_map.mpr ⟨o, born_of_ended orderly ho, rfl⟩

/-- The totals read as the registry gives them. -/
theorem instances_of_totals (h : Readable lines) (counts : f.instanceCounts = true)
    (apart : l.constructor ≠ l.completion) {fs : List Firing} (few : fs.length < 2 ^ 63)
    (orderly : Orderly l (entities lines) fs) (k : Key) :
    let final := ((Probe.new (output f r l lines) registry).run {} fs).registry registry
    final.instanceTotal k = .ofNat (reachedBy l (entities lines) .born fs k) ∧
      final.instanceLive k = (reachedBy l (entities lines) .born fs k : Int) -
        reachedBy l (entities lines) .ended fs k := by
  intro final
  obtain ⟨born, ended⟩ := totals_of_orderly h counts apart orderly k
  exact ⟨born, instanceLive_of_totals born ended ((reachedBy_le_length _ _ _ _).trans_lt few)
    ((reachedBy_le_length _ _ _ _).trans_lt few)⟩

/-- **Instances.**  Let objects be told of in an orderly way where instances are counted.  At every point of the history
the total of a key is the number of objects that were born, and the live instances are those that have not ended.  Any
other choice of the statistics about lives compiles as well and gives the same numbers.  Where lives are timed and no
object is inside its constructor, the creations that wait are the live instances of all keys. -/
theorem instances_of_orderly {set : BindingSet} (h : (Compiler.new f r l).compile lines = .ok set)
    (counts : f.instanceCounts = true) (apart : l.constructor ≠ l.completion) {fs : List Firing}
    (few : fs.length < 2 ^ 63) (orderly : Orderly l (entities lines) fs) {before : List Firing}
    (hp : before <+: fs) :
    let final := ((Probe.new set registry).run {} before).registry registry
    (∀ k, (final.instanceTotal k).toNat = reachedBy l (entities lines) .born before k ∧
        final.instanceLive k = (reachedBy l (entities lines) .born before k : Int) -
          reachedBy l (entities lines) .ended before k) ∧
      (∀ lifetimeMin lifetimeAvg lifetimeMax, ∃ set',
        (Compiler.new { f with lifetimeMin, lifetimeAvg, lifetimeMax } r l).compile lines =
            .ok set' ∧
          let final' := ((Probe.new set' registry).run {} before).registry registry
          ∀ k, final'.instanceTotal k = final.instanceTotal k ∧
            final'.instanceLive k = final.instanceLive k) ∧
      (f.normalized.lifetimeAvg = true →
        (∀ id e, lifeOf l (entities lines) id before ≠ [(e, .begun)]) →
          (final.pendingCreations : Int) =
            ((final.keys .instances).map final.instanceLive).sum) := by
  obtain ⟨readable, rfl⟩ := readable_of_compile h
  intro final
  have here := orderly.of_prefix hp
  have short : before.length < 2 ^ 63 := hp.length_le.trans_lt few
  have told (k : Key) :
      final.instanceTotal k = .ofNat (reachedBy l (entities lines) .born before k) ∧
      final.instanceLive k = (reachedBy l (entities lines) .born before k : Int) -
        reachedBy l (entities lines) .ended before k :=
    instances_of_totals readable counts apart short here k
  refine ⟨fun k => ⟨?_, (told k).2⟩, fun lifetimeMin lifetimeAvg lifetimeMax => ?_,
    fun timed outside => ?_⟩
  · have small : reachedBy l (entities lines) .born before k < 2 ^ 64 :=
      (reachedBy_le_length _ _ _ _).trans_lt (short.trans (by decide))
    rw [(told k).1, UInt64.toNat_ofNat_of_lt' small]
  · refine ⟨_, compile_of_readable _ r l readable, fun k => ?_⟩
    obtain ⟨total, live⟩ := told k
    obtain ⟨total', live'⟩ := instances_of_totals
      (f := { f with lifetimeMin, lifetimeAvg, lifetimeMax }) readable counts apart short here k
    exact ⟨total'.trans total.symm, live'.trans live.symm⟩
  · -- what waits has begun and not ended, and all that has begun was born
    have sum := sum_instanceLive (r := final)
      (fun k => by rw [← reachedBy_eq_count, ← reachedBy_eq_count]; exact (told k).2)
      (mem_keys_instances readable counts apart before) (keys_of_ended here)
    have balance : final.pendingCreations + (reached l (entities lines) .ended before).length =
        (reached l (entities lines) .begun before).length :=
      pendingCreations_of_orderly readable counts apart timed here
    rw [length_begun_eq_length_born here outside] at balance
    rw [sum, List.length_map, List.length_map]
    omega

/-- Two objects of two entities, one of which has ended. -/
theorem instances_two_objects :
    let f : Features := { instanceCounts := true, lifetimeMax := true }
    let r : Registration := ⟨"Helper", "Main", "main", "register", "app:type=Statistics"⟩
    let lines := ["A#f", "B#g"]
    let at_point (entity operation : String) (phase : Phase) (id : UInt64) : Firing :=
      ⟨⟨⟨entity, operation⟩, phase⟩, ⟨id, 7⟩, fun n => .ofNat n⟩
    let fs := [at_point "A" "<init>" .entry 1, at_point "B" "<init>" .entry 2,
      at_point "A" "<init>" .exit 1, at_point "B" "<init>" .exit 2,
      at_point "A" "run" .exceptionExit 1]
    let final := ((Probe.new (output f r {} lines) 0).run {} fs).registry 0
    ((Compiler.new f r).compile lines = .ok (output f r {} lines) ∧
        Orderly {} (entities lines) fs) ∧
      final.instanceLive (Key.entity "A") = 0 ∧ final.instanceLive (Key.entity "B") = 1 ∧
        (final.pendingCreations : Int) = ((final.keys .instances).map final.instanceLive).sum := by
  intro f r lines at_point fs final
  have compiled : (Compiler.new f r).compile lines = .ok (output f r {} lines) :=
    compile_of_readable f r {} rfl
  have told (id : UInt64) : lifeOf {} (entities lines) id fs =
      if id = 1 then [("A", .begun), ("A", .born), ("A", .ended)]
      else if id = 2 then [("B", .begun), ("B", .born)] else [] := by
    by_cases h₁ : id = 1
    · subst h₁; decide
    · by_cases h₂ : id = 2
      · subst h₂; decide
      · simp [lifeOf, fs, at_point, h₁, h₂, Ne.symm h₁, Ne.symm h₂]
  have orderly : Orderly {} (entities lines) fs := fun id => by
    rw [told]
    split
    · exact ⟨"A", List.prefix_rfl⟩
    · split
      · exact ⟨"B", [("B", .ended)], rfl⟩
      · exact ⟨"", List.nil_prefix⟩
  have outside (id : UInt64) (e : String) : lifeOf {} (entities lines) id fs ≠ [(e, .begun)] := by
    rw [told]
    split
    · simp
    · split <;> simp
  obtain ⟨counted, -, waiting⟩ : (∀ k, _ ∧ final.instanceLive k = _) ∧ _ ∧ (_ → _ → _) :=
    instances_of_orderly compiled rfl (by decide) (by decide) orderly List.prefix_rfl
  have live (k : Key) := (counted k).2
  exact ⟨⟨compiled, orderly⟩, (live _).trans (by decide), (live _).trans (by decide),
    waiting rfl outside⟩

end Probe

end Metering
