import Metering.Attribute.Basic
import Metering.Proofs.Attribute.Names
import Metering.Registry.History

/-!
# Proofs — Attribute — Readings

A name has at most one reading, though suffixes have parts in common and keys may have dots or end like the suffix of
another statistic.  A statistic is tried once and a name tells its statistic and its key, so two readings would be one
(`length_readings_le`); and a list of at most one element has no order, so that of the suffixes does not matter
(`readings_of_perm`).  `at_most_one_reading` says in which cases there is one, and that what is got by a name does not
depend on the order.
-/

namespace Metering

/-- The value of the attribute of that name when suffixes are tried in that order. -/
def Registry.getIn (r : Registry) (order : List Statistic) (name : String) : Except Fault Int :=
  match (Statistic.readings order name).find? fun c => r.exposes c.1 c.2 with
  | some (key, statistic) => .ok (r.value key statistic)
  | none => .error (.unknownAttribute name)

namespace Statistic

/-! ### One reading -/

theorem injective_nameOf : Function.Injective fun a : Key × Statistic => a.2.nameOf a.1 := by
  intro a b h
  obtain ⟨statistic, key⟩ := nameOf_injective h
  exact Prod.ext key statistic

/-- Readings of a name are one and the same. -/
theorem eq_of_mem_readings {order : List Statistic} {name : String} {a b : Key × Statistic}
    (ha : a ∈ readings order name) (hb : b ∈ readings order name) : a = b := by
  obtain ⟨-, -, named⟩ := mem_readings_iff.mp ha
  obtain ⟨-, -, named'⟩ := mem_readings_iff.mp hb
  exact injective_nameOf (named.symm.trans named')

theorem pairwise_readings {order : List Statistic} (once : order.Nodup) (name : String) :
    (readings order name).Pairwise fun a b => a.2 ≠ b.2 := by
  refine List.Pairwise.filterMap _ (fun s t different a ha b hb => ?_) once
  obtain ⟨k, -, rfl⟩ := Option.map_eq_some_iff.mp ha
  obtain ⟨l, -, rfl⟩ := Option.map_eq_some_iff.mp hb
  exact different

/-- **One reading** at most, where no statistic is tried twice. -/
theorem length_readings_le {order : List Statistic} (once : order.Nodup) (name : String) :
    (readings order name).length ≤ 1 := by
  have different := pairwise_readings once name
  have same (a b : Key × Statistic) (ha : a ∈ readings order name)
      (hb : b ∈ readings order name) : a = b := eq_of_mem_readings ha hb
  generalize readings order name = found at different same
  match found with
  | [] => exact Nat.zero_le 1
  | [_] => exact Nat.le_refl 1
  | a :: b :: rest =>
      have equal : a = b := same a b List.mem_cons_self (List.mem_cons_of_mem a List.mem_cons_self)
      have distinct : a.2 ≠ b.2 := List.rel_of_pairwise_cons different List.mem_cons_self
      exact absurd (congrArg Prod.snd equal) distinct

theorem nodup_bySuffix : bySuffix.Nodup := by decide

theorem length_candidates_le (name : String) : (candidates name).length ≤ 1 :=
  length_readings_le nodup_bySuffix name

/-- The order in which suffixes are tried does not show. -/
theorem readings_of_perm {order : List Statistic} (h : order.Perm all) (name : String) :
    readings order name = candidates name := by
  have perm : (readings order name).Perm (candidates name) :=
    (h.trans bySuffix_perm.symm).filterMap _
  have one := length_candidates_le name
  generalize candidates name = found at perm one
  match found, one with
  | [], _ => exact List.perm_nil.mp perm
  | [_], _ => exact List.perm_singleton.mp perm

theorem getIn_of_perm {order : List Statistic} (h : order.Perm all) (r : Registry) (name : String) :
    r.getIn order name = r.get name := by
  rw [Registry.getIn, readings_of_perm h]
  rfl

/-! ### Which reading -/

theorem candidates_nameOf {k : Key} (h : k.text ≠ "") (s : Statistic) :
    candidates (s.nameOf k) = [(k, s)] := by
  have read : (k, s) ∈ candidates (s.nameOf k) :=
    mem_candidates_iff.mpr ⟨fun blank => h (Key.text_eq_empty_iff.mpr blank), rfl⟩
  have one := length_candidates_le (s.nameOf k)
  generalize candidates (s.nameOf k) = found at read one
  match found, one with
  | [a], _ => rw [List.mem_singleton.mp read]

/-- A text is the key in a reading when it is a key that is not blank and has the name. -/
theorem exists_candidate_iff {name text : String} {s : Statistic} :
    (∃ k : Key, k.text = text ∧ (k, s) ∈ candidates name) ↔
      text ≠ "" ∧ sanitize text = text ∧ text ++ s.suffix = name := by
  refine ⟨?_, ?_⟩
  · rintro ⟨k, rfl, read⟩
    obtain ⟨notBlank, rfl⟩ := mem_candidates_iff.mp read
    exact ⟨fun empty => notBlank (Key.text_eq_empty_iff.mp empty), k.clean, rfl⟩
  · rintro ⟨ne, clean, rfl⟩
    refine ⟨⟨text, clean⟩, rfl, mem_candidates_iff.mpr ⟨fun blank => ne ?_, rfl⟩⟩
    exact Key.text_eq_empty_iff.mpr blank

/-- **Readings.**  A name has at most one.  A text and a statistic are one when the text is not empty, is safe as a key
and makes the name with the statistic's suffix.  So names are different for different keys or statistics, all but those
of the blank key are read back, and what is got by a name is the same whatever the order in which suffixes are tried. -/
theorem at_most_one_reading :
    (∀ name, (candidates name).length ≤ 1 ∧
      ∀ text s, (∃ k : Key, k.text = text ∧ (k, s) ∈ candidates name) ↔
        text ≠ "" ∧ sanitize text = text ∧ text ++ s.suffix = name) ∧
    Function.Injective (fun a : Key × Statistic => a.2.nameOf a.1) ∧
    (∀ k s, k.text ≠ "" → candidates (s.nameOf k) = [(k, s)]) ∧
    ∀ order, order.Perm all → ∀ name, readings order name = candidates name ∧
      ∀ r : Registry, r.getIn order name = r.get name := by
  refine ⟨fun name => ⟨length_candidates_le name, fun text s => exists_candidate_iff⟩,
    injective_nameOf, fun k s h => candidates_nameOf h s, fun order h name => ?_⟩
  exact ⟨readings_of_perm h name, fun r => getIn_of_perm h r name⟩

/-- A key that ends like the suffix of another statistic: its name is not taken for one of that statistic, also when
the shortest suffixes are tried first. -/
theorem at_most_one_reading_of_suffixed_key :
    let key := Key.entity "pkg.lifetime.average"
    let name := "pkg.lifetime.average.instances.count"
    let r := (Registry.empty.run [⟨0, .incrementInstances key⟩]).2
    key.text ≠ "" ∧ bySuffix.reverse.Perm all ∧ candidates name = [(key, instancesCount)] ∧
      readings bySuffix.reverse name = [(key, instancesCount)] ∧
      r.getIn bySuffix.reverse name = .ok 1 := by
  intro key name r
  obtain ⟨-, -, read, ordered⟩ := at_most_one_reading
  have ne : key.text ≠ "" := by decide +kernel
  have perm : bySuffix.reverse.Perm all := (List.reverse_perm _).trans bySuffix_perm
  have named : instancesCount.nameOf key = name := by decide +kernel
  have candidate : candidates name = [(key, instancesCount)] := by
    rw [← named]
    exact read key instancesCount ne
  obtain ⟨same, got⟩ := ordered bySuffix.reverse perm name
  have exposed : r.exposes key instancesCount = true := by decide +kernel
  have value : r.value key instancesCount = 1 := by decide +kernel
  refine ⟨ne, perm, candidate, same.trans candidate, ?_⟩
  rw [got r, Registry.get, candidate]
  simp only [List.find?, exposed, value]

end Statistic

end Metering
