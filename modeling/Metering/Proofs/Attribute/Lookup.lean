import Metering.Attribute.Basic
import Metering.Proofs.Attribute.Names
import Metering.Registry.History

/-!
# Proofs — Attribute — Lookup

Attributes are reached in two ways: all of them are listed from the keys and options of the moment, and one is got by
reading its name back.  Each way is described by the statistics that are exposed (`mem_attributeNames_iff`,
`get?_snapshot_eq_some_iff`, `get_eq_ok_iff`), and the two differ in one point: the attributes of the blank key are
listed and have values, but their names, which are bare suffixes, cannot be read back.  `get_iff_listed_iff` says that
this is the only difference.
-/

namespace Metering.Registry

/-- A name is listed when it is the name of a statistic that is exposed. -/
theorem mem_attributeNames_iff {r : Registry} {name : String} :
    name ∈ r.attributeNames ↔ ∃ k s, name = s.nameOf k ∧ r.exposes k s = true := by
  rw [attributeNames, ← ByName.get?_isSome_iff, ByName.get?_ofList_isSome_iff, List.map_map,
    List.mem_map]
  refine ⟨?_, ?_⟩
  · rintro ⟨a, ha, rfl⟩
    obtain ⟨he, hn⟩ := mem_attributes_iff.mp ha
    exact ⟨a.key, a.statistic, congrArg Attribute.name hn, he⟩
  · rintro ⟨k, s, rfl, he⟩
    exact ⟨Attribute.of s k, mem_attributes_iff.mpr ⟨he, rfl⟩, rfl⟩

/-- A snapshot has values for the names that are listed. -/
theorem get?_snapshot_isSome_iff {r : Registry} {name : String} :
    (ByName.get? name r.snapshot).isSome = true ↔ name ∈ r.attributeNames := by
  rw [snapshot, attributeNames, ← ByName.get?_isSome_iff, ByName.get?_ofList_isSome_iff,
    ByName.get?_ofList_isSome_iff, List.map_map, List.map_map]
  rfl

/-- The value of a name in a snapshot is that of the one exposed statistic that has the name. -/
theorem get?_snapshot_eq_some_iff {r : Registry} {name : String} {v : Int} :
    ByName.get? name r.snapshot = some v ↔
      ∃ k s, name = s.nameOf k ∧ r.exposes k s = true ∧ v = r.value k s := by
  have of_value {w : Int} (h : ByName.get? name r.snapshot = some w) :
      ∃ k s, name = s.nameOf k ∧ r.exposes k s = true ∧ w = r.value k s := by
    obtain ⟨a, ha, e⟩ := List.mem_map.mp (ByName.mem_of_get?_ofList h)
    cases e
    obtain ⟨he, hn⟩ := mem_attributes_iff.mp ha
    exact ⟨a.key, a.statistic, congrArg Attribute.name hn, he, rfl⟩
  refine ⟨of_value, ?_⟩
  rintro ⟨k, s, hn, he, rfl⟩
  obtain ⟨w, hw⟩ := Option.isSome_iff_exists.mp
    (get?_snapshot_isSome_iff.mpr (mem_attributeNames_iff.mpr ⟨k, s, hn, he⟩))
  obtain ⟨l, t, hn', -, rfl⟩ := of_value hw
  obtain ⟨hs, hk⟩ := Statistic.nameOf_injective (hn.symm.trans hn')
  rw [hw, hs, hk]

/-- A name is got when it is the name of a statistic that is exposed for a key that is not blank. -/
theorem get_eq_ok_iff {r : Registry} {name : String} {v : Int} :
    r.get name = .ok v ↔
      ∃ k s, k ≠ Key.blank ∧ name = s.nameOf k ∧ r.exposes k s = true ∧ v = r.value k s := by
  have of_value {w : Int} (h : r.get name = .ok w) :
      ∃ k s, k ≠ Key.blank ∧ name = s.nameOf k ∧ r.exposes k s = true ∧ w = r.value k s := by
    unfold get at h
    split at h
    · rename_i k s hf
      cases h
      obtain ⟨hk, hn⟩ := Statistic.mem_candidates_iff.mp (List.mem_of_find?_eq_some hf)
      exact ⟨k, s, hk, hn, by simpa using List.find?_some hf, rfl⟩
    · cases h
  refine ⟨of_value, ?_⟩
  rintro ⟨k, s, hk, hn, he, rfl⟩
  have hc := Statistic.mem_candidates_iff.mpr ⟨hk, hn⟩
  cases hg : r.get name with
  | ok w =>
      obtain ⟨l, t, -, hn', -, rfl⟩ := of_value hg
      obtain ⟨hs, hk⟩ := Statistic.nameOf_injective (hn.symm.trans hn')
      rw [hs, hk]
  | error fault =>
      unfold get at hg
      split at hg
      · cases hg
      · rename_i hf
        exact absurd he (List.find?_eq_none.mp hf (k, s) hc)

/-- The names of the blank key are the bare suffixes. -/
theorem nameOf_eq_suffix_iff {k : Key} {s t : Statistic} :
    s.nameOf k = t.suffix ↔ k = Key.blank ∧ s = t := by
  have bare : t.suffix = t.nameOf Key.blank := by
    rw [Statistic.nameOf, show Key.blank.text = "" from rfl, String.empty_append]
  rw [bare]
  refine ⟨?_, ?_⟩
  · intro h
    obtain ⟨hs, hk⟩ := Statistic.nameOf_injective h
    exact ⟨hk, hs⟩
  · rintro ⟨rfl, rfl⟩
    rfl

/-- **Getting and listing.**  After any history a name is got if it has a value in the snapshot and is no bare suffix,
and it is got with this value; the names with values are those listed.  So the names that are got are those listed as
long as nothing is exposed for the blank key, and not otherwise. -/
theorem get_iff_listed_iff (events : List Event) :
    let r := (Registry.empty.run events).2
    (∀ name v, r.get name = .ok v ↔
        (∀ s : Statistic, name ≠ s.suffix) ∧ ByName.get? name r.snapshot = some v) ∧
      (∀ name, name ∈ r.attributeNames ↔ ∃ v, ByName.get? name r.snapshot = some v) ∧
      ((∀ name, (∃ v, r.get name = .ok v) ↔ name ∈ r.attributeNames) ↔
        ∀ s, r.exposes Key.blank s = false) := by
  intro r
  have got (name : String) (v : Int) : r.get name = .ok v ↔
      (∀ s : Statistic, name ≠ s.suffix) ∧ ByName.get? name r.snapshot = some v := by
    rw [get_eq_ok_iff, get?_snapshot_eq_some_iff]
    refine ⟨?_, ?_⟩
    · rintro ⟨k, s, hk, rfl, he, rfl⟩
      exact ⟨fun t ht => hk (nameOf_eq_suffix_iff.mp ht).1, k, s, rfl, he, rfl⟩
    · rintro ⟨ht, k, s, rfl, he, rfl⟩
      exact ⟨k, s, fun hk => ht s (nameOf_eq_suffix_iff.mpr ⟨hk, rfl⟩), rfl, he, rfl⟩
  have listed (name : String) :
      name ∈ r.attributeNames ↔ ∃ v, ByName.get? name r.snapshot = some v := by
    rw [← get?_snapshot_isSome_iff, Option.isSome_iff_exists]
  refine ⟨got, listed, ?_, ?_⟩
  · intro agree s
    by_contra he
    -- were something exposed for the blank key, its name would be listed and could not be got
    have named : s.suffix ∈ r.attributeNames := mem_attributeNames_iff.mpr
      ⟨Key.blank, s, (nameOf_eq_suffix_iff.mpr ⟨rfl, rfl⟩).symm, by simpa using he⟩
    obtain ⟨v, hv⟩ := (agree s.suffix).mpr named
    exact ((got s.suffix v).mp hv).1 s rfl
  · intro hidden name
    refine ⟨?_, ?_⟩
    · rintro ⟨v, hv⟩
      exact (listed name).mpr ⟨v, ((got name v).mp hv).2⟩
    · intro named
      obtain ⟨v, hv⟩ := (listed name).mp named
      refine ⟨v, (got name v).mpr ⟨fun s hs => ?_, hv⟩⟩
      obtain ⟨k, t, hn, he⟩ := mem_attributeNames_iff.mp named
      obtain ⟨rfl, rfl⟩ := nameOf_eq_suffix_iff.mp (hn.symm.trans hs)
      rw [hidden t] at he
      cases he

/-- An instance of an entity whose name has only characters that keys drop: its count is listed and has a value, and
cannot be got. -/
theorem listed_name_not_got :
    let r := (Registry.empty.run [⟨0, .incrementInstances (Key.entity "<>")⟩]).2
    ".instances.count" ∈ r.attributeNames ∧
      ByName.get? ".instances.count" r.snapshot = some 1 ∧
      r.get ".instances.count" = .error (.unknownAttribute ".instances.count") := by
  intro r
  have blank : Key.entity "<>" = Key.blank := Key.ofRaw_eq_blank_iff.mpr (by simp [sanitizeChar])
  have exposed : r.exposes Key.blank .instancesCount = true := by rw [← blank]; rfl
  have named : Statistic.instancesCount.suffix = Statistic.instancesCount.nameOf Key.blank :=
    (nameOf_eq_suffix_iff.mpr ⟨rfl, rfl⟩).symm
  refine ⟨mem_attributeNames_iff.mpr ⟨_, _, named, exposed⟩,
    get?_snapshot_eq_some_iff.mpr ⟨_, _, named, exposed, ?_⟩, ?_⟩
  · rw [← blank]; rfl
  · rfl

end Metering.Registry
