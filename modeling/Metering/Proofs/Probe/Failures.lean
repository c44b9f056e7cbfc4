import Metering.Proofs.Probe.Asked

/-!
# Proofs — Probe — Failures

What fails leaves no trace.  A completion without a start, a registration under a name that is not proper, and a binding
that runs into either of them leave the site as it was (`runBinding_of_error`).  What fails hands on its state like
everything else: a start that does not wait is taken away all the same, and the registry is put back into its site, so
that it is a fact about both that nothing changed.  So a firing does what those of its bindings do that succeed, and each
binding ends as it would without those that failed before it.

Which bindings succeed is told by running all of them.  A binding keeps the reading of the clock that it takes when
others are left out (`withReadings`); `perform` runs bindings at such readings and gives their results.

* `perform_succeeding`: without all failing bindings, the others succeed again and lead to the same site.
* `perform_eraseIdx`: without one failing binding, the results of the others and the site are the same.
-/

namespace Metering.Probe
open Registry

/-! ### Bindings at readings of the clock -/

/-- Bindings with the readings that they take when they run one after another. -/
def withReadings (clock : Nat → UInt64) (bs : List Binding) : List (Binding × UInt64) :=
  bs.mapIdx fun i b => (b, clock i)

/-- Runs bindings at their readings: their results, and the site after them. -/
def perform (number : Nat) (inv : Invocation) :
    List (Binding × UInt64) → Site → List (Except Fault Unit) × Site
  | [], site => ([], site)
  | (b, now) :: rest, site =>
      let (result, site) := runBinding number b inv now site
      let (results, site) := perform number inv rest site
      (result :: results, site)

section
variable (number : Nat) (inv : Invocation)

theorem perform_cons (b : Binding) (now : UInt64) (rest : List (Binding × UInt64)) (site : Site) :
    perform number inv ((b, now) :: rest) site =
      ((runBinding number b inv now site).1 ::
          (perform number inv rest (runBinding number b inv now site).2).1,
        (perform number inv rest (runBinding number b inv now site).2).2) :=
  rfl

/-- A firing performs its bindings at the readings of its clock. -/
theorem perform_withReadings (clock : Nat → UInt64) (bs : List Binding) (site : Site) :
    perform number inv (withReadings clock bs) site =
      ((resultsOf number inv clock bs site).map (·.2), runBindings number inv clock bs site) := by
  induction bs generalizing clock site with
  | nil => rfl
  | cons b rest ih =>
      have shifted : withReadings clock (b :: rest) =
          (b, clock 0) :: withReadings (fun n => clock (n + 1)) rest :=
        List.mapIdx_cons
      rw [shifted, perform_cons, ih]
      rfl

/-- The bindings that succeed when all of these run. -/
def succeeding (xs : List (Binding × UInt64)) (site : Site) : List (Binding × UInt64) :=
  ((xs.zip (perform number inv xs site).1).filter (·.2.isOk)).map (·.1)

/-! ### One binding -/

/-- **One binding.**  If it fails, nothing changes. -/
theorem runBinding_of_error {number : Nat} {inv : Invocation} {b : Binding} {now : UInt64}
    {site : Site} {fault : Fault} (h : (runBinding number b inv now site).1 = .error fault) :
    (runBinding number b inv now site).2 = site := by
  cases ha : operation b.target inv b.action with
  | some op =>
      rw [runBinding_eq ha] at h ⊢
      cases outcome : (site.apply number now op).1 with
      | failed fault => exact Site.apply_of_failed outcome
      | _ => rw [outcome] at h; cases h
  | none =>
      obtain ⟨name, target, phase, action, order⟩ := b
      cases action with
      | register call objectName options =>
          change (site.register objectName number options).1.map _ = _ at h
          change (site.register objectName number options).2 = site
          cases result : (site.register objectName number options).1 with
          | error fault => exact Site.register_of_error result
          | ok new => rw [result] at h; cases h
      | _ => cases ha

/-! ### All bindings -/

/-- **Without all that fail.**  The others succeed again, and the site is the same. -/
theorem perform_succeeding (xs : List (Binding × UInt64)) (site : Site) :
    perform number inv (succeeding number inv xs site) site =
      ((perform number inv xs site).1.filter (·.isOk), (perform number inv xs site).2) := by
  induction xs generalizing site with
  | nil => rfl
  | cons x rest ih =>
      obtain ⟨b, now⟩ := x
      have step : succeeding number inv ((b, now) :: rest) site =
          (if (runBinding number b inv now site).1.isOk then [(b, now)] else []) ++
            succeeding number inv rest (runBinding number b inv now site).2 := by
        rw [succeeding, perform_cons, List.zip_cons_cons, List.filter_cons]
        split <;> rfl
      rw [step, perform_cons, List.filter_cons]
      cases result : (runBinding number b inv now site).1 with
      | ok done =>
          have succeeds : (Except.ok done : Except Fault Unit).isOk = true := rfl
          rw [if_pos succeeds, if_pos succeeds, List.singleton_append, perform_cons, ih, result]
      | error fault =>
          -- the site is the one before this binding, so the rest runs as if it were not there
          rw [runBinding_of_error result]
          exact ih site

/-- **Without one that fails.**  The results of the others and the site are the same. -/
theorem perform_eraseIdx {xs : List (Binding × UInt64)} {site : Site} {i : Nat} {fault : Fault}
    (h : (perform number inv xs site).1[i]? = some (.error fault)) :
    perform number inv (xs.eraseIdx i) site =
      ((perform number inv xs site).1.eraseIdx i, (perform number inv xs site).2) := by
  induction xs generalizing site i with
  | nil => cases h
  | cons x rest ih =>
      obtain ⟨b, now⟩ := x
      rw [perform_cons] at h ⊢
      cases i with
      | zero =>
          have failed : (runBinding number b inv now site).1 = .error fault := Option.some.inj h
          rw [List.eraseIdx_zero, List.tail_cons, runBinding_of_error failed]
          rfl
      | succ i =>
          rw [List.eraseIdx_cons_succ, perform_cons, ih h]
          rfl

end

/-- **Failures leave no trace.**  In every state of a site, what answers with a fault has changed nothing: the end of a
life or of a call, any operation, a registration, and any binding.  A firing performs the bindings at its point; without
those that fail, the others succeed again and lead to the same site, and without any one that fails, the results of the
others and the site are the same. -/
theorem unchanged_of_failed (site : Site) (number : Nat) :
    (∀ now key id fault, ((site.registry number).recordLifetime now key id).1 = .error fault →
        ((site.registry number).recordLifetime now key id).2 = site.registry number) ∧
      (∀ now key id fault, ((site.registry number).recordCallEnd now key id).1 = .error fault →
        ((site.registry number).recordCallEnd now key id).2 = site.registry number) ∧
      (∀ now op fault, (site.apply number now op).1 = .failed fault →
        (site.apply number now op).2 = site) ∧
      (∀ name options fault, (site.register name number options).1 = .error fault →
        (site.register name number options).2 = site) ∧
      (∀ b inv now fault, (runBinding number b inv now site).1 = .error fault →
        (runBinding number b inv now site).2 = site) ∧
      ∀ set point inv clock,
        let fired := ((Probe.new set number).fire point inv clock site).2
        let all := withReadings clock (set.bindingsAt point)
        let results := (resultsOf number inv clock (set.bindingsAt point) site).map (·.2)
        perform number inv all site = (results, fired) ∧
          perform number inv (succeeding number inv all site) site =
            (results.filter (·.isOk), fired) ∧
          ∀ i fault, results[i]? = some (.error fault) →
            perform number inv (all.eraseIdx i) site = (results.eraseIdx i, fired) := by
  refine ⟨fun now key id fault h => ?_, fun now key id fault h => ?_, fun _ _ _ => Site.apply_of_failed,
    fun _ _ _ => Site.register_of_error, fun _ _ _ _ => runBinding_of_error, ?_⟩
  · have failed : ((site.registry number).apply now (.recordLifetime key id)).1 = .failed fault :=
      congrArg Outcome.ofCompletion h
    exact apply_of_failed failed
  · have failed : ((site.registry number).apply now (.recordCallEnd key id)).1 = .failed fault :=
      congrArg Outcome.ofCompletion h
    exact apply_of_failed failed
  · intro set point inv clock fired all results
    have fired_eq : fired = runBindings number inv clock (set.bindingsAt point) site :=
      congrArg (runBindings number inv clock · site) (bindingsAt_new set number point)
    have all_eq : perform number inv all site = (results, fired) := by
      rw [perform_withReadings, fired_eq]
    refine ⟨all_eq, ?_, fun i fault h => ?_⟩
    · rw [perform_succeeding, all_eq]
    · have failed : (perform number inv all site).1[i]? = some (.error fault) := by rw [all_eq]; exact h
      rw [perform_eraseIdx number inv failed, all_eq]

/-- A life that did not begin, a name that is not proper and a call that did not begin: of four bindings at one point
only the one succeeds that counts a call, and the firing does what it does alone. -/
theorem unchanged_of_three_failures :
    let t : Target := ⟨"A", "f"⟩
    let counts : Binding := ⟨"counts", t, .exit, .incrementCallCount, 1⟩
    let set : BindingSet := ⟨"H", [⟨"lives", t, .exit, .recordInstanceLifetime, 0⟩, counts,
      ⟨"registers", t, .exit, .register "registerMBean" "statistics" {}, 2⟩,
      ⟨"times", t, .exit, .recordCallEnd, 3⟩]⟩
    let inv : Invocation := ⟨1, 2⟩
    let clock (n : Nat) : UInt64 := .ofNat (10 + n)
    let results := (resultsOf 0 inv clock (set.bindingsAt ⟨t, .exit⟩) {}).map (·.2)
    results.map (·.isOk) = [false, true, false, false] ∧
      ((Probe.new set 0).fire ⟨t, .exit⟩ inv clock {}).2 = (runBinding 0 counts inv 11 {}).2 := by
  intro t counts set inv clock results
  obtain ⟨-, -, -, -, -, firings⟩ := unchanged_of_failed {} 0
  obtain ⟨-, alone, -⟩ := firings set ⟨t, .exit⟩ inv clock
  have only : succeeding 0 inv (withReadings clock (set.bindingsAt ⟨t, .exit⟩)) {} = [(counts, 11)] := by
    decide +kernel
  rw [only] at alone
  exact ⟨by decide +kernel, (congrArg Prod.snd alone).symm⟩

end Metering.Probe
