import Metering.Proofs.Probe.Compiled
import Metering.Proofs.Probe.Objects
import Metering.Proofs.Registry.Lives

/-!
# Proofs — Probe — Lives

Instances from the compiled set to the registry.  Where instances are counted, each firing at which an object of a
monitored entity reaches a stage asks for one operation (`lifeStep`): a birth counts an instance; an end counts that one
has ended, by itself or by taking the object's creation away, which is noted at the beginning where lives are timed.
For orderly firings every end finds its creation, and so both ways count the same.
-/

namespace Metering.Probe
open Compiler History Registry

/-- What is asked for when an object of an entity reaches a stage. -/
def lifeStep (f : Features) (entity : String) (id : UInt64) : Stage → Option Operation
  | .begun => if f.lifetimeAvg then some (.recordCreation (Key.entity entity) id) else none
  | .born => some (.incrementInstances (Key.entity entity))
  | .ended =>
      some (if f.lifetimeAvg then .recordLifetime (Key.entity entity) id
        else .decrementLive (Key.entity entity))

/-- The rules of an entity ask for the step of the stage, if one is reached. -/
theorem entityAsks_eq {f : Features} (counts : f.instanceCounts = true) {l : Lifecycle}
    (apart : l.constructor ≠ l.completion) (t : Target) (inv : Invocation) (phase : Phase) :
    entityAsks f l t inv phase =
      ((stageAt l t.operation phase).bind (lifeStep f t.entity inv.object)).toList := by
  cases phase with
  | entry =>
      rw [entityAsks, stageAt]
      by_cases hc : t.operation = l.constructor <;> cases ht : f.lifetimeAvg <;>
        simp [hc, ht, lifeStep, Target.entityKey]
  | exit =>
      rw [entityAsks, entityAsks.ended, stageAt]
      by_cases hc : t.operation = l.constructor
      · -- the constructor is not the completion, so its exit ends nothing
        simp [hc, apart, counts, lifeStep, Target.entityKey]
      · by_cases hd : t.operation = l.completion <;> cases ht : f.lifetimeAvg <;>
          simp [hc, hd, ht, counts, Ne.symm apart, lifeStep, Target.entityKey]
  | exceptionExit =>
      rw [entityAsks, entityAsks.ended, stageAt]
      by_cases hd : t.operation = l.completion <;> cases ht : f.lifetimeAvg <;>
        simp [hd, ht, counts, lifeStep, Target.entityKey]

/-- The rules of a target ask for nothing about lives. -/
theorem lives_operationAsks {f : Features} {t : Target} {inv : Invocation} {phase : Phase}
    {op : Operation} (h : op ∈ operationAsks f t inv phase) :
    lifeBegun op = none ∧ instanceEnded op = none ∧ instanceBegun op = none := by
  cases phase <;> rw [operationAsks] at h <;> grind [lifeBegun, instanceEnded, instanceBegun]

variable {f : Features} {r : Registration} {l : Lifecycle} {lines : List String} {registry : Nat}

/-- What is asked for about lives is the step of each stage that is reached. -/
theorem filterMap_asked_lives {β : Type} (h : Readable lines) (counts : f.instanceCounts = true)
    (apart : l.constructor ≠ l.completion) (fs : List Firing) {g : Operation → Option β}
    (hg : ∀ op, lifeBegun op = none → instanceEnded op = none → instanceBegun op = none →
      g op = none) :
    (fs.flatMap (Probe.new (output f r l lines) registry).asked).filterMap g =
      fs.filterMap fun firing => (stageOf l (entities lines) firing).bind fun t =>
        (lifeStep f.normalized t.1 firing.invocation.object t.2).bind g := by
  refine filterMap_flatMap (fun firing => ?_) fs
  have step : (entityAsks f.normalized l firing.point.target firing.invocation
      firing.point.phase).filterMap g =
        ((stageAt l firing.point.target.operation firing.point.phase).bind fun s =>
          (lifeStep f.normalized firing.point.target.entity firing.invocation.object
            s).bind g).toList := by
    rw [entityAsks_eq (f := f.normalized) counts apart, filterMap_toList, Option.bind_assoc]
  rw [filterMap_asked_entity h firing fun op hop =>
    have silent := lives_operationAsks hop
    hg op silent.1 silent.2.1 silent.2.2, stageOf]
  split
  · rw [step, Option.bind_map]
    rfl
  · rfl

/-- What a stage says of a life that is timed. -/
def Stage.turn : Stage → Option Bool
  | .begun => some true
  | .born => none
  | .ended => some false

theorem mark_lifeStep (f : Features) (e : String) (id id' : UInt64) (s : Stage) :
    (lifeStep f e id' s).bind (lifeAccount.mark id) =
      if f.lifetimeAvg ∧ id' = id then s.turn else none := by
  cases s <;> cases ht : f.lifetimeAvg <;>
    simp [lifeStep, ht, mark_lifeAccount, lifeEnded, lifeBegun, Stage.turn]

/-! ### What is asked for, through a history -/

section
variable (h : Readable lines) (counts : f.instanceCounts = true) (apart : l.constructor ≠ l.completion)
  (fs : List Firing)
include h counts apart

/-- What `g` sees of the steps of one stage only is seen once for each object that reaches it. -/
theorem filterMap_asked_stage {β : Type} {g : Operation → Option β}
    (hg : ∀ op, lifeBegun op = none → instanceEnded op = none → instanceBegun op = none →
      g op = none)
    {s : Stage} {told : String × UInt64 → β}
    (step : ∀ e id s', (lifeStep f.normalized e id s').bind g =
      if s' = s then some (told (e, id)) else none) :
    (fs.flatMap (Probe.new (output f r l lines) registry).asked).filterMap g =
      (reached l (entities lines) s fs).map told := by
  rw [filterMap_asked_lives h counts apart fs hg, reached, List.map_filterMap]
  refine List.filterMap_congr fun firing _ => ?_
  cases stageOf l (entities lines) firing with
  | none => rfl
  | some t =>
      rw [Option.bind_some, step, Option.bind_some]
      split <;> rfl

/-- An instance is counted for each object that is born, under the key of its entity. -/
theorem instanceBegun_asked :
    (fs.flatMap (Probe.new (output f r l lines) registry).asked).filterMap instanceBegun =
      (reached l (entities lines) .born fs).map fun o => Key.entity o.1 := by
  refine filterMap_asked_stage h counts apart fs (fun _ _ _ hi => hi) fun e id s => ?_
  cases s with
  | begun => cases ht : f.normalized.lifetimeAvg <;> simp [lifeStep, ht, instanceBegun]
  | born => rfl
  | ended => cases ht : f.normalized.lifetimeAvg <;> simp [lifeStep, ht, instanceBegun]

/-- And one is ended for each object that has ended. -/
theorem instanceEnded_asked :
    (fs.flatMap (Probe.new (output f r l lines) registry).asked).filterMap instanceEnded =
      (reached l (entities lines) .ended fs).map fun o => Key.entity o.1 := by
  refine filterMap_asked_stage h counts apart fs (fun _ _ he _ => he) fun e id s => ?_
  cases s with
  | begun => cases ht : f.normalized.lifetimeAvg <;> simp [lifeStep, ht, instanceEnded]
  | born => rfl
  | ended => cases ht : f.normalized.lifetimeAvg <;> simp [lifeStep, ht, instanceEnded]

/-- Where lives are timed, a creation is noted for each object that begins. -/
theorem lifeBegun_asked (timed : f.normalized.lifetimeAvg = true) :
    (fs.flatMap (Probe.new (output f r l lines) registry).asked).filterMap lifeBegun =
      (reached l (entities lines) .begun fs).map Prod.snd := by
  refine filterMap_asked_stage h counts apart fs (fun _ hb _ _ => hb) fun e id s => ?_
  cases s <;> simp [lifeStep, timed, lifeBegun]

/-- And one is taken away for each object that ends. -/
theorem lifeEnded_asked (timed : f.normalized.lifetimeAvg = true) :
    (fs.flatMap (Probe.new (output f r l lines) registry).asked).filterMap lifeEnded =
      (reached l (entities lines) .ended fs).map Prod.snd := by
  refine filterMap_asked_stage h counts apart fs
    (fun _ _ he _ => lifeEnded_of_instanceEnded he) fun e id s => ?_
  cases s <;> simp [lifeStep, timed, lifeEnded]

/-- What is asked for says of a life what the firings tell of its object where lives are timed, and nothing where they
are not. -/
theorem marks_lives_asked (id : UInt64) :
    lifeAccount.marks id (fs.flatMap (Probe.new (output f r l lines) registry).asked) =
      if f.normalized.lifetimeAvg then (lifeOf l (entities lines) id fs).filterMap fun t => t.2.turn
      else [] := by
  have silent : ∀ op, lifeBegun op = none → instanceEnded op = none → instanceBegun op = none →
      lifeAccount.mark id op = none := by
    intro op hb he _
    rw [mark_lifeAccount, hb, lifeEnded_of_instanceEnded he, if_neg (Option.some_ne_none id).symm,
      if_neg (Option.some_ne_none id).symm]
  rw [Account.marks, filterMap_asked_lives h counts apart fs silent]
  cases ht : f.normalized.lifetimeAvg with
  | false =>
      rw [if_neg Bool.false_ne_true]
      refine List.filterMap_eq_nil_iff.mpr fun firing _ => ?_
      simp [mark_lifeStep, ht]
  | true =>
      rw [if_pos rfl, lifeOf, List.filterMap_filterMap]
      refine List.filterMap_congr fun firing _ => ?_
      by_cases hid : firing.invocation.object = id <;> simp [mark_lifeStep, ht, hid]

/-- Beginnings and ends of each life take turns when the firings are orderly. -/
theorem alternating_of_orderly (orderly : Orderly l (entities lines) fs) (id : UInt64) :
    Alternating
      (lifeAccount.marks id (fs.flatMap (Probe.new (output f r l lines) registry).asked)) := by
  rw [marks_lives_asked h counts apart]
  split
  · obtain ⟨e, none | begun | born | ended⟩ := orderly.cases id
    · rw [none]; exact .nil
    · rw [begun]; exact .begun
    · rw [born]; exact .begun
    · rw [ended]; exact .ended .nil
  · exact .nil

end

end Metering.Probe
