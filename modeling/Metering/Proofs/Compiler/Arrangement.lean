import Metering.Proofs.Compiler.Output
import Metering.Proofs.Compiler.Refusal

/-!
# Proofs — Compiler — Arrangement

How the arrangement of a target list shows in what it compiles to.

* Order and repetition: lists with the same lines that are not blank (`SameLines`) have the same lines that count, each
  once, so the same targets and the same blocks in some order.  Which target an entity's block stands before depends on
  the order, but there is one such block either way (`emitted_perm`).
* Continuation: a line only adds drafts behind those that are there (`drafts_of_readLines`), so what more lines compile
  to starts with what the first ones do, positions included.

`sets_of_arrangements` is both.
-/

namespace Metering.Compiler
open History

/-! ### Positions -/

/-- A binding without its position. -/
def draftOf (b : Binding) : Draft := ⟨b.name, b.target, b.phase, b.action⟩

theorem map_draftOf_place (ds : List Draft) : (place ds).map draftOf = ds := by
  refine List.ext_getElem (by simp [place]) fun i _ _ => ?_
  simp only [place, List.getElem_map, List.getElem_mapIdx]
  rfl

/-- Positions are given out in order. -/
theorem place_prefix {ds es : List Draft} (h : ds <+: es) : place ds <+: place es := by
  obtain ⟨more, rfl⟩ := h
  rw [place, place, List.mapIdx_append]
  exact List.prefix_append _ _

/-! ### The same lines in another order -/

/-- Lists with the same lines but for blank ones and for the carriage returns at their ends, in any order and any number
of times. -/
def SameLines (xs ys : List String) : Prop :=
  ∀ line, Text.isBlank line = false →
    (line ∈ xs.map Text.withoutReturns ↔ line ∈ ys.map Text.withoutReturns)

theorem mem_retained {lines : List String} {line : String} :
    line ∈ retained lines ↔ line ∈ lines.map Text.withoutReturns ∧ Text.isBlank line = false := by
  rw [retained, List.mem_eraseDups, List.mem_filter, Bool.not_eq_true']

theorem nodup_retained (lines : List String) : (retained lines).Nodup := nodup_eraseDups _

section
variable {xs ys : List String}

theorem SameLines.symm (h : SameLines xs ys) : SameLines ys xs := fun line notBlank =>
  (h line notBlank).symm

theorem SameLines.exists_malformed (h : SameLines xs ys) (bad : ∃ raw ∈ xs, Malformed raw) :
    ∃ raw ∈ ys, Malformed raw := by
  obtain ⟨raw, mem, notBlank, unwritten⟩ := bad
  obtain ⟨raw', mem', same⟩ := List.mem_map.mp ((h _ notBlank).mp (List.mem_map_of_mem mem))
  exact ⟨raw', mem', by rwa [same], by rwa [same]⟩

theorem SameLines.targets_perm (h : SameLines xs ys) : (targets xs).Perm (targets ys) := by
  refine List.Perm.filterMap _ ?_
  refine (List.perm_ext_iff_of_nodup (nodup_retained xs) (nodup_retained ys)).mpr fun line => ?_
  rw [mem_retained, mem_retained]
  exact and_congr_left (h line)

end

theorem perm_eraseDups {as bs : List String} (h : as.Perm bs) : as.eraseDups.Perm bs.eraseDups := by
  refine (List.perm_ext_iff_of_nodup (nodup_eraseDups _) (nodup_eraseDups _)).mpr fun a => ?_
  rw [List.mem_eraseDups, List.mem_eraseDups, h.mem_iff]

/-- **Order of targets.**  It does not matter for what is emitted, but for the order. -/
theorem emitted_perm_of_perm (f : Features) (l : Lifecycle) {ts us : List Target}
    (h : ts.Perm us) : (emitted f l ts).Perm (emitted f l us) := by
  have entities := (perm_eraseDups (h.map (·.entity))).flatMap_right (entityBlock f l)
  have operations := h.flatMap_right (operationBlock f)
  exact (emitted_perm f l ts).trans ((entities.append operations).trans (emitted_perm f l us).symm)

theorem eq_compiled {c : Compiler} {lines : List String} {set : BindingSet}
    (h : c.compile lines = .ok set) : set = c.compiled lines := by
  rcases compile_cases c lines with ⟨-, ho⟩ | ⟨-, fault, he⟩
  · rw [ho] at h
    cases h
    rfl
  · rw [he] at h
    cases h

theorem drafts_of_compile {c : Compiler} {lines : List String} {set : BindingSet}
    (h : c.compile lines = .ok set) :
    set.bindings.map draftOf =
      c.registrationDraft :: emitted c.features c.lifecycle (targets lines) := by
  rw [eq_compiled h, compiled, map_draftOf_place]

/-! ### Lines that follow -/

/-- One line only adds drafts. -/
theorem drafts_of_readLine {c : Compiler} {p p' : Progress} {number : Nat} {raw : String}
    (h : c.readLine p number raw = .ok p') : p.drafts <:+ p'.drafts := by
  have read := lineRead c p number raw
  rw [h] at read
  cases read with
  | passed _ => exact List.suffix_refl _
  | added _ _ drafts => exact drafts

/-- **Any lines** only add drafts. -/
theorem drafts_of_readLines {c : Compiler} {lines : List String} {p p' : Progress} {number : Nat}
    (h : c.readLines p number lines = .ok p') : p.drafts <:+ p'.drafts := by
  induction lines generalizing p number with
  | nil =>
      cases h
      exact List.suffix_refl _
  | cons raw rest ih =>
      rw [readLines] at h
      cases read : c.readLine p number raw with
      | error fault =>
          rw [read] at h
          cases h
      | ok q =>
          rw [read] at h
          exact (drafts_of_readLine read).trans (ih h)

theorem compile_of_append {c : Compiler} {xs ys : List String} {set : BindingSet}
    (h : c.compile (xs ++ ys) = .ok set) :
    ∃ first, c.compile xs = .ok first ∧ first.helper = set.helper ∧
      first.bindings <+: set.bindings := by
  rw [compile, readLines_append] at h
  obtain ⟨p', whole, placed⟩ := bind_eq_ok_iff.mp h
  obtain ⟨p, read, more⟩ := bind_eq_ok_iff.mp whole
  cases placed
  refine ⟨_, bind_eq_ok_iff.mpr ⟨p, read, rfl⟩, rfl, place_prefix ?_⟩
  exact List.cons_prefix_cons.mpr ⟨rfl, List.reverse_prefix.mpr (drafts_of_readLines more)⟩

/-- **Arrangement.**  Lists with the same lines both fail, or both compile to sets with the same bindings but for the
order and the positions.  When lines compile with more lines behind them, they compile without these, and to the first
bindings of the same set. -/
theorem sets_of_arrangements (c : Compiler) :
    (∀ xs ys, SameLines xs ys →
      (∃ fault fault', c.compile xs = .error fault ∧ c.compile ys = .error fault') ∨
        ∃ set set', c.compile xs = .ok set ∧ c.compile ys = .ok set' ∧ set.helper = set'.helper ∧
          (set.bindings.map draftOf).Perm (set'.bindings.map draftOf)) ∧
    ∀ xs ys set, c.compile (xs ++ ys) = .ok set →
      ∃ first, c.compile xs = .ok first ∧ first.helper = set.helper ∧
        first.bindings <+: set.bindings := by
  refine ⟨fun xs ys same => ?_, fun xs ys set h => compile_of_append h⟩
  rcases compile_or_refuse c xs with ⟨fine, set, hx⟩ | ⟨bad, number, reason, hx⟩
  · rcases compile_or_refuse c ys with ⟨-, set', hy⟩ | ⟨bad, -⟩
    · refine .inr ⟨set, set', hx, hy, ?_, ?_⟩
      · rw [eq_compiled hx, eq_compiled hy]
        rfl
      · rw [drafts_of_compile hx, drafts_of_compile hy]
        exact (emitted_perm_of_perm _ _ same.targets_perm).cons _
    · obtain ⟨raw, mem, malformed⟩ := same.symm.exists_malformed bad
      exact absurd malformed (fine raw mem)
  · obtain ⟨fault, hy⟩ := (exists_fault_iff c ys).mpr (same.exists_malformed bad)
    exact .inl ⟨_, fault, hx, hy⟩

/-- Two targets of an entity in either order, one of them repeated, with blank lines between: the same bindings, in
another order.  More lines behind them leave their bindings where they are. -/
theorem sets_of_two_targets :
    let c := Compiler.new { instanceCounts := true, callCounts := true }
      ⟨"H", "app.Main", "main", "registerMBean", "p:t=S"⟩
    let xs := ["A#x\r", "", "A#y"]
    let ys := ["A#y", "  ", "A#y\r\r", "A#x"]
    SameLines xs ys ∧
      (∃ set set', c.compile xs = .ok set ∧ c.compile ys = .ok set' ∧
        (set.bindings.map draftOf).Perm (set'.bindings.map draftOf) ∧
        set.bindings.map draftOf ≠ set'.bindings.map draftOf) ∧
      ∃ first set, c.compile xs = .ok first ∧ c.compile (xs ++ ["B#z"]) = .ok set ∧
        first.bindings <+: set.bindings ∧ first.size = 6 ∧ set.size = 10 := by
  intro c xs ys
  have stripped : xs.map Text.withoutReturns = ["A#x", "", "A#y"] := by decide +kernel
  have stripped' : ys.map Text.withoutReturns = ["A#y", "  ", "A#y", "A#x"] := by decide +kernel
  have same : SameLines xs ys := by
    intro line notBlank
    rw [stripped, stripped']
    have ne : line ≠ "" := by
      rintro rfl
      cases notBlank
    have ne' : line ≠ "  " := by
      rintro rfl
      cases notBlank
    simp only [List.mem_cons, List.not_mem_nil, or_false, ne, ne', false_or]
    tauto
  obtain ⟨arranged, continued⟩ := sets_of_arrangements c
  refine ⟨same, ?_, ?_⟩
  · rcases arranged xs ys same with ⟨fault, -, failed, -⟩ | ⟨set, set', hx, hy, -, perm⟩
    · obtain ⟨set, compiled⟩ : ∃ set, c.compile xs = .ok set :=
        compile_of_fine (by decide +kernel)
      rw [compiled] at failed
      cases failed
    · refine ⟨set, set', hx, hy, perm, ?_⟩
      rw [drafts_of_compile hx, drafts_of_compile hy]
      decide +kernel
  · obtain ⟨set, whole⟩ : ∃ set, c.compile (xs ++ ["B#z"]) = .ok set :=
      compile_of_fine (by decide +kernel)
    obtain ⟨first, compiled, -, start⟩ := continued xs ["B#z"] set whole
    refine ⟨first, set, compiled, whole, start, ?_, ?_⟩
    · rw [eq_compiled compiled]
      decide +kernel
    · rw [eq_compiled whole]
      decide +kernel

end Metering.Compiler
