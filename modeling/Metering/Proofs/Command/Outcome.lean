import Metering.Proofs.Binding.Decoded
import Metering.Proofs.Command.Overwriting

/-!
# Proofs — Command — Outcome

What the command answers and leaves, whatever it is given.  It goes through stages of which any may fail: the
configuration is read, decoded and accepted, the target list is read, decoded and compiled, and the bindings are
written (`Stages`).  It succeeds when all of them do (`run_files_eq_ok_iff`).  All but the last only read, and a write
that fails changes nothing, so that a run that fails leaves every file as it was (`tree_of_run`).  A run that succeeds
has changed the file of its output alone (`Tree.Replaced`), and the set can be read back from it (`run_outcome`).
-/

namespace Metering

/-- A path names a file with the given contents, and everywhere else a tree is as it was. -/
structure Tree.Replaced (t : Tree) (path : String) (contents : ByteArray) (t' : Tree) : Prop where
  read : t'.read path = .ok contents
  here : t'.here = t.here
  elsewhere : ∀ place, t.place? path ≠ some place → t'.entry? place = t.entry? place

theorem Tree.replaced_of_write {t t' : Tree} {path : String} {contents : ByteArray}
    (written : t.write path contents = .ok t') : t.Replaced path contents t' := by
  obtain ⟨directory, name, leads, -, same⟩ := write_eq_ok_iff.mp written
  have named : directory ++ [name] ≠ [] := by simp
  refine ⟨read_written written, by rw [same]; rfl, fun place other => ?_⟩
  rw [same, entry?_put named, if_neg fun h => other (leads.place?_eq.trans (congrArg some h))]

namespace Command

variable {args : List String} {t t' : Tree} {c : Config} {set : BindingSet}

/-- The configuration in a file, or why there is none; nothing is changed. -/
theorem load_files (path : String) (t : Tree) :
    load Tree.files path t =
      (match t.read path with
        | .error e => .error (.io ("read config failed: " ++ e.message))
        | .ok bytes =>
            match Text.ofUtf8? bytes with
            | none => .error (.io ("read config failed: " ++ "stream did not contain valid UTF-8"))
            | some yaml => Config.ofText yaml, t) := by
  simp only [load, bind, StateT.bind, readText_files]
  cases t.read path with
  | error => rfl
  | ok bytes =>
      dsimp only
      cases Text.ofUtf8? bytes with
      | none => rfl
      | some => rfl

/-- A configuration is loaded if its file is read and decoded, and what it says is accepted. -/
theorem load_files_eq_ok_iff {path : String} :
    load Tree.files path t = (.ok c, t') ↔ t' = t ∧ ∃ bytes yaml,
      t.read path = .ok bytes ∧ Text.ofUtf8? bytes = some yaml ∧ Config.ofText yaml = .ok c := by
  rw [load_files]
  constructor
  · intro loaded
    obtain ⟨accepted, rfl⟩ := Prod.mk.inj loaded
    refine ⟨rfl, ?_⟩
    split at accepted
    · cases accepted
    · split at accepted
      · cases accepted
      · exact ⟨_, _, ‹_›, ‹_›, accepted⟩
  · rintro ⟨rfl, bytes, yaml, read, decoded, accepted⟩
    simp only [read, decoded, accepted]

/-- A run is that of the configuration that is loaded, if there is one. -/
theorem run_files (args : List String) (t : Tree) :
    run Tree.files args t =
      match (load Tree.files (configPath args) t).1 with
      | .error fault => (.error fault, t)
      | .ok c => compile Tree.files c t := by
  simp only [run, bind, StateT.bind, load_files]
  generalize (match t.read (configPath args) with | .error e => _ | .ok bytes => _) = loaded
  cases loaded with
  | error => rfl
  | ok => rfl

/-! ### Stages -/

/-- All the stages of a run succeed. -/
structure Stages (args : List String) (t : Tree) (c : Config) (list : String) (set : BindingSet) (t' : Tree) :
    Prop where
  configured : ∃ bytes yaml, t.read (configPath args) = .ok bytes ∧ Text.ofUtf8? bytes = some yaml ∧
    Config.ofText yaml = .ok c
  listed : ∃ bytes, t.read c.compiler.inputFile = .ok bytes ∧ Text.ofUtf8? bytes = some list
  compiled : c.toCompiler.compileText list = .ok set
  written : t.write c.compiler.outputFile (contents set) = .ok t'

theorem run_files_eq_ok_iff :
    run Tree.files args t = (.ok set, t') ↔ ∃ c list, Stages args t c list set t' := by
  rw [run_files]
  constructor
  · intro ran
    split at ran
    · cases ran
    · rename_i c loaded
      obtain ⟨-, configured⟩ := load_files_eq_ok_iff.mp (Prod.ext loaded (by rw [load_files]))
      obtain ⟨bytes, list, read, decoded, compiled, written⟩ := compile_files_eq_ok_iff.mp ran
      exact ⟨c, list, configured, ⟨bytes, read, decoded⟩, compiled, written⟩
  · rintro ⟨c, list, configured, ⟨bytes, read, decoded⟩, compiled, written⟩
    rw [load_files_eq_ok_iff.mpr ⟨rfl, configured⟩]
    exact compile_files_eq_ok_iff.mpr ⟨bytes, list, read, decoded, compiled, written⟩

/-- A run that fails changes nothing. -/
theorem tree_of_run {fault : Fault} (failed : run Tree.files args t = (.error fault, t')) : t' = t := by
  rw [run_files] at failed
  split at failed
  · cases failed
    rfl
  · rw [compile_files] at failed
    repeat' split at failed
    all_goals cases failed
    all_goals rfl

/-- **Outcome of a run.**  Either a stage fails, then the command exits with failure and leaves every file as it was.
Or all succeed: then it exits with success and has changed nothing but the file that the output names, which holds the
text of the bindings of the target list as it stood, and the set is read back from it. -/
theorem run_outcome (args : List String) (t : Tree) :
    (∃ fault, run Tree.files args t = (.error fault, t) ∧ exitCode (run Tree.files args t).1 = 1 ∧
        ∀ c list set t', ¬ Stages args t c list set t') ∨
      ∃ c list set t', run Tree.files args t = (.ok set, t') ∧ exitCode (run Tree.files args t).1 = 0 ∧
        Stages args t c list set t' ∧ t.Replaced c.compiler.outputFile (contents set) t' ∧
        Text.ofUtf8? (contents set) = some set.toJson.pretty ∧
        Json.ofText? set.toJson.pretty = some set.toJson ∧ BindingSet.ofJson set.toJson = .ok set := by
  cases ran : run Tree.files args t with
  | mk outcome t' =>
      cases outcome with
      | error fault =>
          refine .inl ⟨fault, by rw [tree_of_run ran], rfl, fun c list set t'' stages => ?_⟩
          rw [run_files_eq_ok_iff.mpr ⟨c, list, stages⟩] at ran
          cases ran
      | ok set =>
          obtain ⟨c, list, stages⟩ := run_files_eq_ok_iff.mp ran
          exact .inr ⟨c, list, set, t', rfl, rfl, stages, Tree.replaced_of_write stages.written,
            Text.ofUtf8?_toUTF8 _, set.ofText?_pretty, set.ofJson_toJson⟩

end Command

end Metering
