import Metering.Proofs.Registry.Entries
import Metering.Proofs.Site.Steps

/-!
# Proofs — Site — Publication

Two things at a site are given once and for all: a name to a registry, and options to a registry.  Both are read off the
history.

* `holder?`: the registry that holds a name is the one for which the name was first asked (`lookup_run`).
* `attempts`: the options of a registry may be fixed by configuring it, and by a registration that gets its name.  The
  first of these attempts counts (`fixed_run`).

An event adds at most one asker and at most one attempt to what is read, and these only matter when they are the first
(`lookup_step`, `fixed_step`); so what was given stays as the history grows.  A name that is held was given by a
registration, which was an attempt, so its registry has options (`fixed_of_holder`).
-/

namespace Metering.Site
open History

/-! ### Histories that grow -/

theorem run_append (s : Site) (earlier later : List Event) :
    s.run (earlier ++ later) =
      ((s.run earlier).1 ++ ((s.run earlier).2.run later).1, ((s.run earlier).2.run later).2) := by
  induction earlier generalizing s with
  | nil => rfl
  | cons e rest ih => simp only [List.cons_append, run, ih]

theorem length_answers (s : Site) (events : List Event) :
    (s.run events).1.length = events.length := by
  induction events generalizing s with
  | nil => rfl
  | cons e rest ih => simp [run, ih]

/-- The site after a history. -/
def after (events : List Event) : Site := (({} : Site).run events).2

/-- The answers to a history. -/
def answers (events : List Event) : List Answer := (({} : Site).run events).1

theorem after_concat (events : List Event) (e : Event) :
    after (events ++ [e]) = ((after events).step e).2 :=
  congrArg Prod.snd (run_append {} events [e])

theorem answers_concat (events : List Event) (e : Event) :
    answers (events ++ [e]) = answers events ++ [((after events).step e).1] :=
  congrArg Prod.fst (run_append {} events [e])

/-- The answer to an event is what the site answers that the events before it leave. -/
theorem getElem?_answers (earlier : List Event) (e : Event) (later : List Event) :
    (answers (earlier ++ e :: later))[earlier.length]? = some ((after earlier).step e).1 := by
  rw [answers, run_append, List.getElem?_append_right (by rw [length_answers]), length_answers,
    Nat.sub_self]
  rfl

/-! ### Who holds a name -/

/-- The registry for which an event asks for a name.  A name that is not proper is asked for in vain. -/
def asker? (name : String) : Event → Option Nat
  | .register name' number _ =>
      if name' = name ∧ ObjectName.validate name = .ok () then some number else none
  | .operate .. => none

/-- The registry that holds a name after a history: the one for which it was asked first. -/
def holder? (name : String) (events : List Event) : Option Nat := events.findSome? (asker? name)

theorem holder?_concat (name : String) (events : List Event) (e : Event) :
    holder? name (events ++ [e]) = (holder? name events).or (asker? name e) := by
  rw [holder?, holder?, List.findSome?_append, List.findSome?_singleton]

/-- **One event.**  It gives a name to the registry for which it asks, unless the name is held. -/
theorem lookup_step (s : Site) (e : Event) (name : String) :
    (s.step e).2.lookup name = (s.lookup name).or (asker? name e) := by
  cases e with
  | operate number now op =>
      change (s.apply number now op).2.directory.get? name = _
      rw [directory_apply, asker?, Option.or_none]
      rfl
  | register name' number options =>
      change (s.register name' number options).2.directory.get? name = _
      by_cases free : s.Free name'
      · rw [register_of_free free]
        change (s.directory.insert name' number).get? name = _
        rw [Table.get?_insert, asker?]
        by_cases same : name' = name
        · subst same
          rw [if_pos rfl, if_pos ⟨rfl, free.1⟩, free.2, Option.none_or]
        · rw [if_neg same, if_neg fun h => same h.1, Option.or_none]
          rfl
      · rw [register_of_not_free free]
        change s.lookup name = _
        cases held : s.lookup name with
        | some holder => rfl
        | none =>
            -- the name is not held, so it is not the one that is asked for or it is not proper
            rw [Option.none_or, asker?, if_neg]
            rintro ⟨rfl, proper⟩
            exact free ⟨proper, held⟩

/-- **Names.**  A name is held by the registry for which it was first asked. -/
theorem lookup_run (events : List Event) (name : String) :
    (after events).lookup name = holder? name events := by
  induction events using List.reverseRecOn with
  | nil => rfl
  | append_singleton events e ih =>
      rw [after_concat, lookup_step, ih, holder?_concat]

/-- A name is free when it is proper and was not asked for. -/
theorem free_iff (events : List Event) (name : String) :
    (after events).Free name ↔ ObjectName.validate name = .ok () ∧ holder? name events = none := by
  rw [Free, lookup_run]

/-! ### Options -/

/-- The options that an event gives to a registry unless it has some, after the events before it: those of its
configuration, and those of a registration that gets its name. -/
def attempt? (number : Nat) (before : List Event) : Event → Option RecordOptions
  | .register name number' options =>
      if number' = number ∧ ObjectName.validate name = .ok () ∧ holder? name before = none then
        some options
      else none
  | .operate number' _ op => if number' = number then Registry.fixes? op else none

/-- The attempts to give options to a registry. -/
def attempts (number : Nat) (events : List Event) : List RecordOptions :=
  (mapBefore (attempt? number) events).filterMap id

theorem attempts_concat (number : Nat) (events : List Event) (e : Event) :
    attempts number (events ++ [e]) =
      attempts number events ++ (attempt? number events e).toList := by
  rw [attempts, mapBefore_concat, List.filterMap_append, attempts]
  cases attempt? number events e <;> rfl

/-- **One event.**  It gives options to the registry for which it is an attempt, unless the registry has some. -/
theorem fixed_step (events : List Event) (e : Event) (number : Nat) :
    (((after events).step e).2.registry number).fixed =
      ((after events).registry number).fixed.or (attempt? number events e) := by
  cases e with
  | operate number' now op =>
      change ((after events).apply number' now op |>.2.registry number).fixed = _
      by_cases here : number' = number
      · subst here
        rw [registry_apply, Registry.fixed_apply, attempt?, if_pos rfl]
      · rw [registry_apply_of_ne _ here, attempt?, if_neg here, Option.or_none]
  | register name number' options =>
      change ((after events).register name number' options |>.2.registry number).fixed = _
      by_cases here : number' = number
      · subst here
        by_cases free : (after events).Free name
        · rw [registry_register_of_free free, attempt?, if_pos ⟨rfl, (free_iff events name).mp free⟩]
          exact ((after events).registry number').fixed_apply 0 (.configure options)
        · rw [register_of_not_free free, attempt?,
            if_neg fun h => free ((free_iff events name).mpr h.2), Option.or_none]
      · rw [registry_register_of_ne _ _ here, attempt?, if_neg fun h => here h.1, Option.or_none]

/-- **Options.**  A registry has the options of the first attempt. -/
theorem fixed_run (events : List Event) (number : Nat) :
    ((after events).registry number).fixed = (attempts number events).head? := by
  induction events using List.reverseRecOn with
  | nil => rfl
  | append_singleton events e ih =>
      rw [after_concat, fixed_step, ih, attempts_concat, List.head?_append]
      cases attempt? number events e <;> rfl

/-- What was given to a registry stays. -/
theorem fixed_append {earlier : List Event} {number : Nat} {options : RecordOptions}
    (h : ((after earlier).registry number).fixed = some options) (later : List Event) :
    ((after (earlier ++ later)).registry number).fixed = some options := by
  induction later using List.reverseRecOn with
  | nil => rwa [List.append_nil]
  | append_singleton later e ih =>
      rw [← List.append_assoc, after_concat, fixed_step, ih, Option.some_or]

/-- So does what was given away. -/
theorem lookup_append {earlier : List Event} {name : String} {number : Nat}
    (h : (after earlier).lookup name = some number) (later : List Event) :
    (after (earlier ++ later)).lookup name = some number := by
  rw [lookup_run] at h ⊢
  rw [holder?, List.findSome?_append, ← holder?, h, Option.some_or]

/-- Who holds a name was given it by an attempt. -/
theorem attempts_ne_nil {name : String} {number : Nat} {events : List Event}
    (h : holder? name events = some number) : attempts number events ≠ [] := by
  induction events using List.reverseRecOn with
  | nil => cases h
  | append_singleton events e ih =>
      rw [attempts_concat]
      rw [holder?_concat] at h
      cases held : holder? name events with
      | some holder =>
          rw [held, Option.some_or] at h
          exact List.append_ne_nil_of_left_ne_nil (ih (held.trans h)) _
      | none =>
          rw [held, Option.none_or] at h
          cases e with
          | operate => cases h
          | register name' number' options =>
              rw [asker?] at h
              split at h
              · rename_i asks
                obtain ⟨rfl, proper⟩ := asks
                cases h
                rw [attempt?, if_pos ⟨rfl, proper, held⟩]
                simp
              · cases h

/-! ### Registrations that get their name -/

/-- An event gets a name: it registers the name, and is told that it was free. -/
def gets (name : String) : Event × Answer → Bool
  | (.register name' _ _, .registered (.ok true)) => name' = name
  | _ => false

/-- **One event.**  It gets a name when it asks for it and the name is not held. -/
theorem gets_step (s : Site) (e : Event) (name : String) :
    gets name (e, (s.step e).1) = ((s.lookup name).isNone && (asker? name e).isSome) := by
  cases e with
  | operate number now op => simp [gets, asker?]
  | register name' number options =>
      change gets name (_, .registered (s.register name' number options).1) = _
      rw [answer_register, asker?]
      by_cases same : name' = name
      · subst same
        cases ObjectName.validate name' with
        | error fault => simp [gets, Except.map]
        | ok => cases s.lookup name' <;> simp [gets, Except.map]
      · rw [if_neg fun h => same h.1, Option.isSome_none, Bool.and_false]
        cases ObjectName.validate name' with
        | error fault => simp [gets, Except.map]
        | ok => cases s.lookup name' <;> simp [gets, Except.map, same]

/-- A name that is held was got once, and one that is not was never got. -/
theorem countP_gets (events : List Event) (name : String) :
    (events.zip (answers events)).countP (gets name) = (holder? name events).toList.length := by
  induction events using List.reverseRecOn with
  | nil => rfl
  | append_singleton events e ih =>
      have answered : events.length = (answers events).length := (length_answers {} events).symm
      rw [answers_concat, List.zip_append answered, List.countP_append, ih, holder?_concat,
        List.zip_cons_cons, List.zip_nil_left, List.countP_singleton, gets_step, lookup_run]
      cases holder? name events <;> cases asker? name e <;> rfl

/-- **Names and options are given once.**  In any history of any number of registries, a name is got at most once, and
the registry that holds it goes on to hold it and has options.  The options of a registry are those of the first attempt
and stay as they are.  A registration is told whether its name was free; under a name that is held it changes nothing. -/
theorem given_once (events : List Event) :
    (∀ name, (events.zip (answers events)).countP (gets name) ≤ 1) ∧
      (∀ earlier name number, earlier <+: events → (after earlier).lookup name = some number →
        (after events).lookup name = some number) ∧
      (∀ name number, (after events).lookup name = some number →
        ((after events).registry number).fixed ≠ none) ∧
      (∀ number, ((after events).registry number).fixed = (attempts number events).head?) ∧
      (∀ earlier number options, earlier <+: events →
        ((after earlier).registry number).fixed = some options →
          ((after events).registry number).fixed = some options) ∧
      ∀ earlier name number options later, events = earlier ++ .register name number options :: later →
        (answers events)[earlier.length]? = some (.registered
            ((ObjectName.validate name).map fun _ => (holder? name earlier).isNone)) ∧
          ((after earlier).lookup name ≠ none →
            after (earlier ++ [.register name number options]) = after earlier) := by
  refine ⟨fun name => ?_, ?_, fun name number held => ?_, fixed_run events, ?_, ?_⟩
  · rw [countP_gets]
    cases holder? name events <;> simp
  · rintro earlier name number ⟨later, rfl⟩ held
    exact lookup_append held later
  · rw [lookup_run] at held
    rw [fixed_run, ne_eq, List.head?_eq_none_iff]
    exact attempts_ne_nil held
  · rintro earlier number options ⟨later, rfl⟩ fixed
    exact fixed_append fixed later
  · rintro earlier name number options later rfl
    refine ⟨?_, fun held => ?_⟩
    · rw [getElem?_answers, ← lookup_run, ← answer_register _ _ number options]
      rfl
    · rw [after_concat]
      exact register_of_not_free (fun free => held free.2) number options

/-- The second registration of a name comes from a registry without options, and leaves it without; the first registry
keeps its options under a second name. -/
theorem given_once_two_registries :
    let first : RecordOptions := { lifetimeMin := true }
    let second : RecordOptions := { execTimeMax := true }
    let taken : Event := .register "d:k=v" 0 first
    let again : Event := .register "d:k=v" 1 second
    let events : List Event := [taken, again, .operate 1 7 (.configure second), .register "e:k=v" 0 second]
    ((after [taken]).lookup "d:k=v" = some 0 ∧ (after events).lookup "d:k=v" = some 0) ∧
      after [taken, again] = after [taken] ∧
      (attempts 0 events = [first, second] ∧ ((after events).registry 0).fixed = some first) ∧
      attempts 1 events = [second] ∧ ((after events).registry 1).fixed = some second := by
  intro first second taken again events
  obtain ⟨-, stays, -, fixed, -, register⟩ := given_once events
  have held : (after [taken]).lookup "d:k=v" = some 0 := by decide +kernel
  have unchanged := (register [taken] _ _ _ _ rfl).2 (by rw [held]; exact Option.some_ne_none 0)
  have attempts_first : attempts 0 events = [first, second] := by decide +kernel
  have attempts_second : attempts 1 events = [second] := by decide +kernel
  refine ⟨⟨held, stays [taken] _ _ ⟨_, rfl⟩ held⟩, unchanged, ⟨attempts_first, ?_⟩, attempts_second, ?_⟩
  · rw [fixed, attempts_first]
    rfl
  · rw [fixed, attempts_second]
    rfl

end Metering.Site
