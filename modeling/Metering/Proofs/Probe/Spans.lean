import Metering.Proofs.Probe.Calls
import Metering.Proofs.Probe.Registration
import Metering.Proofs.Registry.Reads

/-!
# Proofs — Probe — Spans

The times that firings of a compiled set take: of the lives of objects and of calls (`Span`).  A firing may begin the
span that it is in, or complete it (`Span.turn`); a completion counts when the last that firings before it say of the
span is that it begins (`Span.Completes`).

What a span is in the registry is told by operations in the same terms (`Span.saidBy`), and where spans are timed a
firing asks for one operation that says what the firing does (`saidBy_events`).  So a start waits in the registry when
its span is open (`isSome_waitingSince_events`), and what is taken in for a key is one time for each completion of a span
of the key (`completion_of_taken`, `taken_of_completion`).
-/

namespace Metering.Probe
open Compiler History Registry

variable {f : Features} {r : Registration} {l : Lifecycle} {lines : List String} {registry : Nat}

/-! ### Spans in firings -/

/-- What times are taken of: the lives of objects and the calls of operations. -/
inductive Span where
  | life
  | call

namespace Span

/-- The summaries of the times. -/
def series : Span → Series
  | life => lifetimeSeries
  | call => execTimeSeries

/-- Whether the times are wanted. -/
def timed (f : Features) : Span → Bool
  | life => f.lifetimeAvg
  | call => f.execTimeAvg

/-- The key under which a firing would take a time. -/
def key (g : Firing) : Span → Key
  | life => g.point.target.entityKey
  | call => g.point.target.operationKey

/-- The life or the call that a firing is in. -/
def correlation (g : Firing) : Span → Correlation
  | life => .life g.invocation.object
  | call => .call g.point.target.operationKey g.invocation.call

/-- Whether a firing begins its span (`true`) or completes it, if it does either.  The life of an object of a monitored
entity begins when a constructor is entered, and is completed when a completion is left in any way; a call of a listed
target begins when this is entered, and is completed when it is left. -/
def turn (l : Lifecycle) (lines : List String) (g : Firing) : Span → Option Bool
  | life =>
      if g.point.target.entity ∈ entities lines then
        if g.point.phase = .entry then
          if g.point.target.operation = l.constructor then some true else none
        else if g.point.target.operation = l.completion then some false else none
      else none
  | call => if g.point.target ∈ targets lines then some (g.point.phase = .entry) else none

/-- What a firing says of one span. -/
def turnOf (l : Lifecycle) (lines : List String) (s : Span) (c : Correlation) (g : Firing) :
    Option Bool :=
  if s.correlation g = c then s.turn l lines g else none

/-- A span is open when the last that firings say of it is that it begins. -/
def IsOpen (l : Lifecycle) (lines : List String) (s : Span) (c : Correlation) (fs : List Firing) :
    Prop :=
  (fs.filterMap (s.turnOf l lines c)).getLast? = some true

/-- A firing completes its span when this is open. -/
def Completes (l : Lifecycle) (lines : List String) (s : Span) (before : List Firing) (g : Firing) :
    Prop :=
  s.turn l lines g = some false ∧ s.IsOpen l lines (s.correlation g) before

end Span

/-! ### Spans in what is asked for -/

/-- What is said of a span: under which key, of which life or call, and whether it begins. -/
structure Saying where
  key : Key
  correlation : Correlation
  begins : Bool

namespace Span

/-- What an operation says of a span. -/
def saidBy : Span → Operation → Option Saying
  | life, .recordCreation k id => some ⟨k, .life id, true⟩
  | life, .recordLifetime k id => some ⟨k, .life id, false⟩
  | call, .recordCallStart k id => some ⟨k, .call k id, true⟩
  | call, .recordCallEnd k id | call, .incrementExceptionExits k id => some ⟨k, .call k id, false⟩
  | _, _ => none

/-- What a firing says of its span. -/
def said (l : Lifecycle) (lines : List String) (g : Firing) (s : Span) : Option Saying :=
  (s.turn l lines g).map fun begins => ⟨s.key g, s.correlation g, begins⟩

theorem mark_eq (s : Span) (g : Firing) (op : Operation) :
    mark (s.correlation g) op = (s.saidBy op).bind fun x =>
      if x.correlation = s.correlation g then some x.begins else none := by
  cases s <;> cases op <;> simp [mark, saidBy, started?, ended?, correlation]

theorem ends_eq (s : Span) (op : Operation) :
    s.series.ends op = (s.saidBy op).bind fun x =>
      if x.begins then none else some (x.key, x.correlation) := by
  cases s <;> cases op <;> rfl

/-- The registration says nothing of spans. -/
theorem saidBy_configure (s : Span) (options : RecordOptions) :
    s.saidBy (.configure options) = none := by
  cases s <;> rfl

end Span

/-- Where lives are timed, the rules of an entity say of a life what the firing does. -/
theorem life_saidBy_entityAsks {f : Features} (timed : f.lifetimeAvg = true) (l : Lifecycle)
    (t : Target) (inv : Invocation) (phase : Phase) :
    (entityAsks f l t inv phase).filterMap Span.life.saidBy =
      ((if phase = .entry then if t.operation = l.constructor then some true else none
        else if t.operation = l.completion then some false else none).map fun begins =>
          (⟨t.entityKey, .life inv.object, begins⟩ : Saying)).toList := by
  have ended : (entityAsks.ended f l t inv).filterMap Span.life.saidBy =
      ((if t.operation = l.completion then some false else none).map fun begins =>
        (⟨t.entityKey, .life inv.object, begins⟩ : Saying)).toList := by
    rw [entityAsks.ended, if_pos timed]
    split <;> rfl
  cases phase with
  | entry =>
      rw [entityAsks, timed]
      by_cases hc : t.operation = l.constructor <;> simp [hc, Span.saidBy]
  | exit =>
      -- a birth is no matter of the span, which has begun before it
      have born : (if t.operation = l.constructor ∧ f.instanceCounts then
          [Operation.incrementInstances t.entityKey] else []).filterMap Span.life.saidBy = [] := by
        split <;> rfl
      rw [entityAsks, List.filterMap_append, born, ended]
      rfl
  | exceptionExit => exact ended

/-- Where lives are not timed, those rules say nothing of them. -/
theorem life_saidBy_entityAsks_of_untimed {f : Features} (untimed : f.lifetimeAvg = false)
    {l : Lifecycle} {t : Target} {inv : Invocation} {phase : Phase} {op : Operation}
    (h : op ∈ entityAsks f l t inv phase) : Span.life.saidBy op = none := by
  have ended (h : op ∈ entityAsks.ended f l t inv) : Span.life.saidBy op = none := by
    rw [entityAsks.ended, untimed] at h
    grind [Span.saidBy]
  cases phase with
  | entry =>
      rw [entityAsks, untimed] at h
      simp at h
  | exit =>
      rcases List.mem_append.mp h with h | h
      · grind [Span.saidBy]
      · exact ended h
  | exceptionExit => exact ended h

/-- Where calls are timed, the rules of a target say of a call what the firing does. -/
theorem call_saidBy_operationAsks {f : Features} (timed : f.normalized.execTimeAvg = true)
    (t : Target) (inv : Invocation) (phase : Phase) :
    (operationAsks f.normalized t inv phase).filterMap Span.call.saidBy =
      [⟨t.operationKey, .call t.operationKey inv.call, phase = .entry⟩] := by
  rw [filterMap_operationAsks timed t inv phase fun _ => rfl]
  cases phase <;> rfl

/-- Where they are not, those rules begin none. -/
theorem call_begins_operationAsks {f : Features} (untimed : f.execTimeAvg = false) {t : Target}
    {inv : Invocation} {phase : Phase} {op : Operation} (h : op ∈ operationAsks f t inv phase)
    {x : Saying} (hx : Span.call.saidBy op = some x) : x.begins = false := by
  cases phase <;> rw [operationAsks] at h <;> grind [Span.saidBy]

/-- The rules of a target say nothing of lives. -/
theorem life_saidBy_operationAsks {f : Features} {t : Target} {inv : Invocation} {phase : Phase}
    {op : Operation} (h : op ∈ operationAsks f t inv phase) : Span.life.saidBy op = none := by
  cases phase <;> rw [operationAsks] at h <;> grind [Span.saidBy]

theorem call_saidBy_entityAsks {f : Features} {l : Lifecycle} {t : Target} {inv : Invocation}
    {phase : Phase} {op : Operation} (h : op ∈ entityAsks f l t inv phase) :
    Span.call.saidBy op = none := by
  have silent := calls_entityAsks h
  cases op <;> simp_all [Span.saidBy, callBegun, callEnded]

section
variable (h : Readable lines) (valid : ObjectName.validate r.objectName = .ok ())
include h valid

/-- **What a firing says.**  Where a span is timed, the operations of a firing say of it what the firing does. -/
theorem saidBy_events {s : Span} (timed : s.timed f.normalized = true) (g : Firing) :
    (((Probe.new (output f r l lines) registry).events g).map (·.operation)).filterMap s.saidBy =
      (s.said l lines g).toList := by
  rw [filterMap_operation_events h valid s.saidBy_configure]
  cases s with
  | life =>
      rw [filterMap_asked_entity h g fun _ => life_saidBy_operationAsks, Span.said, Span.turn]
      split
      · exact life_saidBy_entityAsks timed l _ _ _
      · rfl
  | call =>
      rw [filterMap_asked_target h g fun _ => call_saidBy_entityAsks, Span.said, Span.turn]
      split
      · exact call_saidBy_operationAsks timed _ _ _
      · rfl

/-- Where a span is not timed, none begins. -/
theorem begins_events {s : Span} (untimed : s.timed f.normalized = false) {g : Firing} {x : Saying}
    (hx : x ∈ (((Probe.new (output f r l lines) registry).events g).map (·.operation)).filterMap
      s.saidBy) : x.begins = false := by
  rw [filterMap_operation_events h valid s.saidBy_configure] at hx
  cases s with
  | life =>
      rw [filterMap_asked_entity h g fun _ => life_saidBy_operationAsks] at hx
      split at hx
      · obtain ⟨op, hop, said⟩ := List.mem_filterMap.mp hx
        rw [life_saidBy_entityAsks_of_untimed untimed hop] at said
        cases said
      · cases hx
  | call =>
      rw [filterMap_asked_target h g fun _ => call_saidBy_entityAsks] at hx
      split at hx
      · obtain ⟨op, hop, said⟩ := List.mem_filterMap.mp hx
        exact call_begins_operationAsks untimed hop said
      · cases hx

/-- What is said at a firing is said under its key and of its span. -/
theorem saying_of_events {s : Span} {g : Firing} {x : Saying}
    (hx : x ∈ (((Probe.new (output f r l lines) registry).events g).map (·.operation)).filterMap
      s.saidBy) : x.key = s.key g ∧ x.correlation = s.correlation g := by
  rw [filterMap_operation_events h valid s.saidBy_configure, asked_new] at hx
  obtain ⟨op, hop, said⟩ := List.mem_filterMap.mp hx
  obtain ⟨action, -, asks⟩ := List.mem_filterMap.mp hop
  cases action <;> cases asks <;> cases s <;> cases said <;> exact ⟨rfl, rfl⟩

/-! ### Spans in a history -/

/-- Where a span is timed, the operations of a firing mark it as the firing says. -/
theorem marks_events {s : Span} (timed : s.timed f.normalized = true) (g g' : Firing) :
    (((Probe.new (output f r l lines) registry).events g').map (·.operation)).filterMap
      (mark (s.correlation g)) = (s.turnOf l lines (s.correlation g) g').toList := by
  rw [funext (s.mark_eq g), ← List.filterMap_filterMap, saidBy_events h valid timed,
    filterMap_toList, Span.said, Span.turnOf]
  cases s.turn l lines g' with
  | none => simp
  | some begins => rfl

/-- Where a span is not timed, no start of it waits. -/
theorem waitingSince_of_untimed {s : Span} (untimed : s.timed f.normalized = false) (g : Firing)
    {events : List Event}
    (sub : ∀ e ∈ events, ∃ g', e ∈ (Probe.new (output f r l lines) registry).events g') :
    waitingSince (s.correlation g) events = none := by
  rw [← Option.not_isSome_iff_eq_none, isSome_waitingSince]
  cases hl : ((events.map (·.operation)).filterMap (mark (s.correlation g))).getLast? with
  | none => exact Bool.false_ne_true
  | some begins =>
      -- the last mark is none of a beginning, since no operation begins the span
      obtain ⟨op, mem, marked⟩ := List.mem_filterMap.mp (List.mem_of_getLast? hl)
      obtain ⟨e, he, rfl⟩ := List.mem_map.mp mem
      obtain ⟨g', hg'⟩ := sub e he
      rw [s.mark_eq] at marked
      obtain ⟨x, hx, begun⟩ := Option.bind_eq_some_iff.mp marked
      split at begun
      · cases begun
        have ended : x.begins = false := begins_events h valid untimed
          (List.mem_filterMap.mpr ⟨e.operation, List.mem_map_of_mem hg', hx⟩)
        rw [Option.getD_some, ended]
        exact Bool.false_ne_true
      · cases begun

/-- **Open spans.**  A start waits when its span is timed and open. -/
theorem isSome_waitingSince_events (s : Span) (g : Firing) (fs : List Firing) :
    (waitingSince (s.correlation g)
        (fs.flatMap (Probe.new (output f r l lines) registry).events)).isSome = true ↔
      s.timed f.normalized = true ∧ s.IsOpen l lines (s.correlation g) fs := by
  cases timed : s.timed f.normalized with
  | true =>
      rw [isSome_waitingSince, List.map_flatMap, filterMap_flatMap (marks_events h valid timed g),
        Span.IsOpen]
      cases (fs.filterMap (s.turnOf l lines (s.correlation g))).getLast? <;> simp
  | false =>
      have none : waitingSince (s.correlation g)
          (fs.flatMap (Probe.new (output f r l lines) registry).events) = none :=
        waitingSince_of_untimed h valid timed g fun _ he =>
          (List.mem_flatMap.mp he).imp fun _ => And.right
      simp [none]

/-- Of the events of a firing only one says something of a span that is timed, and it says what the firing does. -/
theorem said_of_mem_events {s : Span} (timed : s.timed f.normalized = true) {g : Firing}
    {inner outer : List Event} {e : Event}
    (split : (Probe.new (output f r l lines) registry).events g = inner ++ e :: outer) {x : Saying}
    (hx : s.saidBy e.operation = some x) :
    s.said l lines g = some x ∧ inner.filterMap (told (s.correlation g)) = [] := by
  have said : (((Probe.new (output f r l lines) registry).events g).map (·.operation)).filterMap
      s.saidBy = (s.said l lines g).toList := saidBy_events h valid timed g
  rw [split, List.map_append, List.map_cons, List.filterMap_append,
    List.filterMap_cons_some hx] at said
  cases hg : s.said l lines g with
  | none => rw [hg] at said; simp at said
  | some y =>
      rw [hg, Option.toList_some] at said
      obtain ⟨quiet, rest⟩ | ⟨_, none⟩ := List.append_eq_singleton_iff.mp said
      · have told : (inner.filterMap (told (s.correlation g))).map (·.isSome) = [] := by
          rw [map_isSome_told, funext (s.mark_eq g), ← List.filterMap_filterMap, quiet]
          rfl
        exact ⟨congrArg some (List.cons.inj rest).1.symm, List.map_eq_nil_iff.mp told⟩
      · cases none

/-- **Times.**  Each time that is taken in for a key is taken at a firing that completes a span of the key.  If the
registration point was entered before, it comes under the options of the features. -/
theorem completion_of_taken {s : Span} {fs : List Firing} {k : Key} {time : UInt64}
    {options : RecordOptions}
    (taken : (time, options) ∈
      s.series.taken k (fs.flatMap (Probe.new (output f r l lines) registry).events)) :
    ∃ before g after, fs = before ++ g :: after ∧ s.timed f.normalized = true ∧
      s.Completes l lines before g ∧ s.key g = k ∧
        ((∃ g ∈ before, g.point = registrationPoint r) → options = f.normalized.recordOptions) := by
  obtain ⟨before, e, after, c, start, place, ends, waits, -, rfl⟩ := s.series.mem_taken.mp taken
  have sub : ∀ e' ∈ before, ∃ g, e' ∈ (Probe.new (output f r l lines) registry).events g :=
    fun e' he => (List.mem_flatMap.mp (place ▸ List.mem_append_left _ he)).imp fun _ => And.right
  rw [s.ends_eq] at ends
  obtain ⟨x, hx, ended⟩ := Option.bind_eq_some_iff.mp ends
  split at ended
  · cases ended
  rename_i completes
  cases ended
  -- the event is one of a firing, so it is about the firing's own span
  obtain ⟨fs₁, g, fs₂, inner, outer, rfl, here, rfl, -⟩ := flatMap_eq_append_cons.mp place
  have mem : e ∈ (Probe.new (output f r l lines) registry).events g := by simp [here]
  obtain ⟨key, correlation⟩ := saying_of_events h valid
    (List.mem_filterMap.mpr ⟨e.operation, List.mem_map_of_mem mem, hx⟩)
  rw [correlation] at waits
  have timed : s.timed f.normalized = true := by
    by_contra untimed
    rw [waitingSince_of_untimed h valid (by simpa using untimed) g sub] at waits
    cases waits
  obtain ⟨said, quiet⟩ := said_of_mem_events h valid timed here hx
  rw [waitingSince_append quiet] at waits
  refine ⟨fs₁, g, fs₂, rfl, timed, ⟨?_, ?_⟩, key.symm, fun entered => ?_⟩
  · obtain ⟨begins, turn, rfl⟩ := Option.map_eq_some_iff.mp said
    rw [turn]
    simpa using completes
  · exact ((isSome_waitingSince_events h valid s g fs₁).mp (by rw [waits]; rfl)).2
  · exact inForce_of_entered h valid sub (List.prefix_append _ inner) entered

/-- **Completions.**  A firing that completes a span which is timed takes a time in. -/
theorem taken_of_completion {s : Span} (timed : s.timed f.normalized = true)
    {before after : List Firing} {g : Firing} (completes : s.Completes l lines before g) :
    ∃ x, x ∈ s.series.taken (s.key g)
      ((before ++ g :: after).flatMap (Probe.new (output f r l lines) registry).events) := by
  let p := Probe.new (output f r l lines) registry
  obtain ⟨turn, spanned⟩ := completes
  have said : ⟨s.key g, s.correlation g, false⟩ ∈
      ((p.events g).map (·.operation)).filterMap s.saidBy := by
    rw [saidBy_events h valid timed, Span.said, turn]
    exact List.mem_singleton_self _
  obtain ⟨op, hop, hx⟩ := List.mem_filterMap.mp said
  obtain ⟨e, he, rfl⟩ := List.mem_map.mp hop
  obtain ⟨inner, outer, here⟩ := List.append_of_mem he
  have waiting : (waitingSince (s.correlation g) (before.flatMap p.events)).isSome = true :=
    (isSome_waitingSince_events h valid s g before).mpr ⟨timed, spanned⟩
  obtain ⟨start, waits⟩ := Option.isSome_iff_exists.mp waiting
  rw [← waitingSince_append (said_of_mem_events h valid timed here hx).2] at waits
  refine ⟨(elapsed start e.now, inForce (before.flatMap p.events ++ inner)),
    s.series.mem_taken.mpr ⟨_, e, outer ++ after.flatMap p.events, s.correlation g, start, ?_, ?_,
      waits, rfl, rfl⟩⟩
  · simp [p, here]
  · rw [s.ends_eq, hx]
    rfl

end

end Metering.Probe
