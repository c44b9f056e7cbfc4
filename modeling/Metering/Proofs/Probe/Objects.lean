import Metering.Compiler
import Metering.Probe.History
import Metering.Proofs.History

/-!
# Proofs — Probe — Objects

The lives of objects as firings tell them.  An object of a monitored entity begins when its constructor is entered, is
born when that is left, and ends when its completion is left in either way (`stageOf`).  `lifeOf` is what firings tell
of one object; they are orderly when each object goes through the stages of one entity in their order and stops
anywhere (`Orderly`).  Then what has ended was born (`born_of_ended`), and where no object is inside its constructor as many have
begun as were born (`length_begun_eq_length_born`).
-/

namespace Metering.Probe
open History

/-- How far an object has come. -/
inductive Stage where
  | begun
  | born
  | ended
deriving DecidableEq

/-- The stage that an object reaches when an operation of its entity is at a phase. -/
def stageAt (l : Lifecycle) (operation : String) : Phase → Option Stage
  | .entry => if operation = l.constructor then some .begun else none
  | .exit =>
      if operation = l.constructor then some .born
      else if operation = l.completion then some .ended else none
  | .exceptionExit => if operation = l.completion then some .ended else none

/-- The entity and the stage that a firing tells of its object, if the entity is one of these. -/
def stageOf (l : Lifecycle) (entities : List String) (f : Firing) : Option (String × Stage) :=
  if f.point.target.entity ∈ entities then
    (stageAt l f.point.target.operation f.point.phase).map fun s => (f.point.target.entity, s)
  else none

/-- What firings tell of an object. -/
def lifeOf (l : Lifecycle) (entities : List String) (id : UInt64) (fs : List Firing) :
    List (String × Stage) :=
  fs.filterMap fun f => if f.invocation.object = id then stageOf l entities f else none

/-- Each object belongs to one entity and goes through the stages in their order, each once, as far as it comes. -/
def Orderly (l : Lifecycle) (entities : List String) (fs : List Firing) : Prop :=
  ∀ id, ∃ e, lifeOf l entities id fs <+: [(e, .begun), (e, .born), (e, .ended)]

/-- The objects that reach a stage, each with its entity. -/
def reached (l : Lifecycle) (entities : List String) (s : Stage) (fs : List Firing) :
    List (String × UInt64) :=
  fs.filterMap fun f =>
    (stageOf l entities f).bind fun t => if t.2 = s then some (t.1, f.invocation.object) else none

/-- How many objects of an entity key reach a stage. -/
def reachedBy (l : Lifecycle) (entities : List String) (s : Stage) (fs : List Firing) (k : Key) :
    Nat :=
  (reached l entities s fs).countP fun o => Key.entity o.1 = k

variable {l : Lifecycle} {entities : List String} {fs : List Firing}

/-- The beginnings of orderly firings are orderly. -/
theorem Orderly.of_prefix {before : List Firing} (h : Orderly l entities fs) (hp : before <+: fs) :
    Orderly l entities before := fun id => by
  obtain ⟨e, he⟩ := h id
  exact ⟨e, (hp.filterMap _).trans he⟩

/-- How far an object of orderly firings has come. -/
theorem Orderly.cases (h : Orderly l entities fs) (id : UInt64) :
    ∃ e, lifeOf l entities id fs = [] ∨ lifeOf l entities id fs = [(e, .begun)] ∨
      lifeOf l entities id fs = [(e, .begun), (e, .born)] ∨
      lifeOf l entities id fs = [(e, .begun), (e, .born), (e, .ended)] := by
  obtain ⟨e, he⟩ := h id
  refine ⟨e, ?_⟩
  rcases List.prefix_cons_iff.mp he with none | ⟨t, begun, ht⟩
  · exact .inl none
  · rcases List.prefix_cons_iff.mp ht with rfl | ⟨u, rfl, hu⟩
    · exact .inr (.inl begun)
    · rcases List.prefix_cons_iff.mp hu with rfl | ⟨v, rfl, hv⟩
      · exact .inr (.inr (.inl begun))
      · rw [List.prefix_nil] at hv
        exact .inr (.inr (.inr (hv ▸ begun)))

/-- An object reaches a stage when its life tells so. -/
theorem mem_lifeOf_iff {e : String} {s : Stage} {id : UInt64} :
    (e, s) ∈ lifeOf l entities id fs ↔ (e, id) ∈ reached l entities s fs := by
  rw [lifeOf, reached, List.mem_filterMap, List.mem_filterMap]
  refine exists_congr fun f => and_congr_right fun _ => ?_
  cases stageOf l entities f with
  | none => simp
  | some t =>
      by_cases hid : f.invocation.object = id <;> by_cases hs : t.2 = s <;>
        simp [hid, hs, Prod.ext_iff]

theorem count_reached (s : Stage) (id : UInt64) :
    ((reached l entities s fs).map Prod.snd).count id =
      (lifeOf l entities id fs).countP fun t => t.2 = s := by
  rw [List.count, List.countP_map, reached, lifeOf, List.countP_filterMap, List.countP_filterMap]
  refine List.countP_congr fun f _ => ?_
  cases stageOf l entities f with
  | none => simp
  | some t =>
      by_cases hid : f.invocation.object = id <;> by_cases hs : t.2 = s <;> simp [hid, hs]

/-- What has ended was born. -/
theorem born_of_ended (h : Orderly l entities fs) {e : String} {id : UInt64}
    (he : (e, id) ∈ reached l entities .ended fs) : (e, id) ∈ reached l entities .born fs := by
  rw [← mem_lifeOf_iff] at he ⊢
  obtain ⟨e', none | begun | born | ended⟩ := h.cases id
  · rw [none] at he; cases he
  · rw [begun] at he; simp at he
  · rw [born] at he; simp at he
  · rw [ended] at he ⊢
    simpa using he

/-- Where no object is inside its constructor, as many have begun as were born. -/
theorem length_begun_eq_length_born (h : Orderly l entities fs)
    (outside : ∀ id e, lifeOf l entities id fs ≠ [(e, .begun)]) :
    (reached l entities .begun fs).length = (reached l entities .born fs).length := by
  have same : ((reached l entities .begun fs).map Prod.snd).Perm
      ((reached l entities .born fs).map Prod.snd) := by
    -- object by object: each reached both stages once, or none of them
    refine List.perm_iff_count.mpr fun id => ?_
    rw [count_reached, count_reached]
    obtain ⟨e, none | begun | born | ended⟩ := h.cases id
    · rw [none]; rfl
    · exact absurd begun (outside id e)
    · rw [born]; rfl
    · rw [ended]; rfl
  simpa only [List.length_map] using same.length_eq

end Metering.Probe
