import Metering.Registry.Basic

/-!
# Attribute — Statistic

The statistics that are exposed for a key, each under a name that is the key and a suffix of its own.  A name is read
back by trying the suffixes (`candidates`), the longest first.
-/

namespace Metering

/-- A statistic that a key may have. -/
inductive Statistic where
  | instancesCount
  | instancesLive
  | lifetimeMinimum
  | lifetimeAverage
  | lifetimeMaximum
  | calls
  | execTimeMinimum
  | execTimeAverage
  | execTimeMaximum
  | exceptionExits
deriving DecidableEq

namespace Statistic

/-- All statistics, in the order in which they are listed. -/
def all : List Statistic :=
  [instancesCount, instancesLive, lifetimeMinimum, lifetimeAverage, lifetimeMaximum, calls,
   execTimeMinimum, execTimeAverage, execTimeMaximum, exceptionExits]

/-- What follows the key in the name of the statistic. -/
def suffix : Statistic → String
  | instancesCount => ".instances.count"
  | instancesLive => ".instances.live"
  | lifetimeMinimum => ".lifetime.minimum"
  | lifetimeAverage => ".lifetime.average"
  | lifetimeMaximum => ".lifetime.maximum"
  | calls => ".calls"
  | execTimeMinimum => ".exectime.minimum"
  | execTimeAverage => ".exectime.average"
  | execTimeMaximum => ".exectime.maximum"
  | exceptionExits => ".exit.exception"

/-- The family whose keys have the statistic. -/
def category : Statistic → Category
  | instancesCount | instancesLive => .instances
  | lifetimeMinimum | lifetimeAverage | lifetimeMaximum => .lifetimes
  | calls => .calls
  | execTimeMinimum | execTimeAverage | execTimeMaximum => .execTimes
  | exceptionExits => .exceptionExits

/-- Whether the statistic is exposed when those optional ones are kept. -/
def isEnabled (options : RecordOptions) : Statistic → Bool
  | lifetimeMinimum => options.lifetimeMin
  | lifetimeMaximum => options.lifetimeMax
  | execTimeMinimum => options.execTimeMin
  | execTimeMaximum => options.execTimeMax
  | exceptionExits => options.exceptionExits
  | _ => true

/-- What the statistic tells of a key. -/
def phrase : Statistic → String
  | instancesCount => "Total instances of"
  | instancesLive => "Live instances of"
  | lifetimeMinimum => "Minimum instance lifetime of"
  | lifetimeAverage => "Average instance lifetime of"
  | lifetimeMaximum => "Maximum instance lifetime of"
  | calls => "Call count of"
  | execTimeMinimum => "Minimum execution time of"
  | execTimeAverage => "Average execution time of"
  | execTimeMaximum => "Maximum execution time of"
  | exceptionExits => "Exits via exceptions from"

/-- The name of the statistic of a key. -/
def nameOf (s : Statistic) (key : Key) : String := key.text ++ s.suffix

/-- What the statistic of a key tells, for people. -/
def describe (s : Statistic) (key : Key) : String := s.phrase ++ " " ++ key.text

/-- The statistics in the order in which their suffixes are tried: longer ones first, and in the order of `all` where
they are as long. -/
def bySuffix : List Statistic :=
  [lifetimeMinimum, lifetimeAverage, lifetimeMaximum, execTimeMinimum, execTimeAverage,
   execTimeMaximum, instancesCount, instancesLive, exceptionExits, calls]

theorem bySuffix_perm : bySuffix.Perm all := by decide

theorem bySuffix_descending :
    bySuffix.Pairwise fun s t => t.suffix.length ≤ s.suffix.length := by decide

/-- What stands before a suffix, if the name ends with it. -/
def stem? (suffix name : String) : Option String :=
  let size := name.length - suffix.length
  if suffix.length ≤ name.length ∧ name.toList.drop size = suffix.toList then
    some (String.ofList (name.toList.take size))
  else none

/-- The key whose statistic has the name, if there is one.  The key is not empty. -/
def keyOf? (s : Statistic) (name : String) : Option Key :=
  (stem? s.suffix name).bind fun stem => if stem = "" then none else Key.ofClean? stem

/-- The readings of a name as key and statistic. -/
def candidates (name : String) : List (Key × Statistic) :=
  bySuffix.filterMap fun s => (s.keyOf? name).map fun key => (key, s)

theorem stem?_eq_some_iff {suffix name stem : String} :
    stem? suffix name = some stem ↔ name = stem ++ suffix := by
  constructor
  · intro h
    simp only [stem?] at h
    split at h
    · rename_i hc
      rw [Option.some.injEq] at h
      subst h
      rw [← String.toList_inj]
      simp only [String.toList_append, String.toList_ofList]
      rw [← hc.2, List.take_append_drop]
    · simp at h
  · rintro rfl
    have hn : (stem ++ suffix).length - suffix.length = stem.toList.length := by
      rw [String.length_append, Nat.add_sub_cancel, String.length_toList]
    have hl : suffix.length ≤ (stem ++ suffix).length := by
      rw [String.length_append]; omega
    simp only [stem?, hn, hl, String.toList_append, List.drop_left, List.take_left, and_self,
      if_true, String.ofList_toList]

theorem keyOf?_eq_some_iff {s : Statistic} {name : String} {key : Key} :
    s.keyOf? name = some key ↔ key.text ≠ "" ∧ name = s.nameOf key := by
  simp only [keyOf?, Option.bind_eq_some_iff, stem?_eq_some_iff, nameOf]
  constructor
  · rintro ⟨stem, rfl, h⟩
    split at h
    · simp at h
    · rename_i hne
      rw [Key.ofClean?_eq_some_iff] at h
      subst h
      exact ⟨hne, rfl⟩
  · rintro ⟨hne, rfl⟩
    exact ⟨key.text, rfl, by rw [if_neg hne, Key.ofClean?_text]⟩

end Statistic

end Metering
