import Metering.Command
import Metering.Proofs.Compiler.Output
import Metering.Proofs.Config.Acceptance
import Metering.Proofs.File.Tree

/-!
# Proofs — Command — Overwriting

What a run leaves of its own target list.  A configuration in which the output has the name of the input is refused
(`ne_of_validate`).  But names are compared as texts, and two texts may name one file: the target list is kept exactly
when the two paths do not name the same file (`input_of_run`).  The comparison suffices for paths of names alone, but
only because a tree has no links: it does not look at what a name stands for.  Even without links it misses a component
for the directory in which the program runs (`input_lost_of_dot`).

A list that is written over is always lost, since bindings cannot be read as a target list (`compileText_contents`).
-/

namespace Metering

/-! ### Bindings are no target list -/

/-- The first line of a text. -/
theorem Text.lines_append {line : String} (feed : '\n' ∉ line.toList)
    (return_ : line.toList.getLast? ≠ some '\r') (rest : List Char) :
    ∃ more, lines (String.ofList (line.toList ++ '\n' :: rest)) = line :: more := by
  obtain ⟨p, ps, e⟩ := List.exists_cons_of_ne_nil (pieces_ne_nil '\n' rest)
  rw [lines, linesAt, String.toList_ofList, pieces_append feed, e]
  simp only [List.dropLast_cons_cons, List.map_cons, List.cons_append, withoutReturn, if_neg return_,
    String.ofList_toList]
  exact ⟨_, rfl⟩

/-- Members start on a line of their own. -/
theorem Json.prettyMembers_cons (depth : Nat) (m : String × Json) (ms : List (String × Json)) :
    ∃ rest, prettyMembers depth (m :: ms) = '\n' :: rest := by
  cases ms with
  | nil => exact ⟨_, rfl⟩
  | cons => exact ⟨_, rfl⟩

/-- An object with members starts with a line that has the opening brace alone. -/
theorem Json.pretty_object (m : String × Json) (ms : List (String × Json)) :
    ∃ rest, (Json.object (m :: ms)).pretty = String.ofList ("\x7b".toList ++ '\n' :: rest) := by
  obtain ⟨rest, e⟩ := prettyMembers_cons 1 m ms
  have shape : prettyText 0 (.object (m :: ms)) = '\x7b' :: (prettyMembers 1 (m :: ms) ++ indent 0 ++ ['\x7d']) := rfl
  rw [pretty, shape, e]
  exact ⟨_, rfl⟩

namespace Compiler

/-- A first line without a separator cannot be read. -/
theorem not_readable_cons {line : String} (blank : Text.isBlank (Text.withoutReturns line) = false)
    (separate : separator ∉ (Text.withoutReturns line).toList) (more : List String) :
    ¬ Readable (line :: more) := by
  obtain ⟨rest, e⟩ := retained_append [line] more
  have first : retained [line] = [Text.withoutReturns line] := by
    have := retained_concat [] line
    simpa [retained, blank] using this
  refine not_readable_of_mem (?_ : Text.withoutReturns line ∈ _) fun t ht => ?_
  · rw [List.singleton_append] at e
    rw [e, first]
    exact List.mem_append_left _ List.mem_cons_self
  · obtain ⟨-, -, -, written⟩ := Target.parse_eq_ok_iff.mp ht
    rw [written, Target.toList_text] at separate
    simp at separate

end Compiler

namespace Command

/-- Bindings are written as no target list. -/
theorem compileText_contents (c : Config) (set set' : BindingSet) :
    c.toCompiler.compileText set.toJson.pretty ≠ .ok set' := by
  intro compiled
  obtain ⟨rest, written⟩ := Json.pretty_object ("helper", .string set.helper)
    [("bindings", .array (set.bindings.map Binding.toJson))]
  have feed : '\n' ∉ "\x7b".toList := by decide
  obtain ⟨more, brace⟩ := Text.lines_append feed (by decide) rest
  rw [Compiler.compileText, BindingSet.toJson, written, brace] at compiled
  exact Compiler.not_readable_cons (by decide) (by decide) more
    (Compiler.readable_of_compile compiled).1

/-! ### Runs -/

variable {c : Config} {t t' : Tree} {set : BindingSet}

/-- A text that is read, or why there is none; nothing is changed. -/
theorem readText_files (path : String) (t : Tree) :
    readText Tree.files path t =
      (match t.read path with
        | .error e => .error e.message
        | .ok bytes =>
            match Text.ofUtf8? bytes with
            | none => .error "stream did not contain valid UTF-8"
            | some text => .ok text, t) := by
  simp only [readText, Tree.files, bind, StateT.bind]
  cases t.read path with
  | error => rfl
  | ok bytes =>
      simp only [Except.mapError]
      cases Text.ofUtf8? bytes with
      | none => rfl
      | some => rfl

/-- What a run answers and leaves: it goes on as long as nothing fails, and nothing is changed before the bindings are
written. -/
theorem compile_files (c : Config) (t : Tree) :
    compile Tree.files c t =
      match t.read c.compiler.inputFile with
      | .error e => (.error (.io ("read " ++ c.compiler.inputFile ++ " failed: " ++ e.message)), t)
      | .ok list =>
          match Text.ofUtf8? list with
          | none =>
              (.error (.io ("read " ++ c.compiler.inputFile ++ " failed: " ++
                "stream did not contain valid UTF-8")), t)
          | some text =>
              match c.toCompiler.compileText text with
              | .error fault => (.error fault, t)
              | .ok set =>
                  match t.write c.compiler.outputFile (contents set) with
                  | .error e =>
                      (.error (.io ("write " ++ c.compiler.outputFile ++ " failed: " ++ e.message)), t)
                  | .ok t' => (.ok set, t') := by
  simp only [compile, bind, StateT.bind, readText_files]
  cases t.read c.compiler.inputFile with
  | error => rfl
  | ok list =>
      dsimp only
      cases Text.ofUtf8? list with
      | none => rfl
      | some text =>
          dsimp only
          cases c.toCompiler.compileText text with
          | error => rfl
          | ok set =>
              simp only [Tree.files, StateT.bind]
              cases t.write c.compiler.outputFile (contents set) with
              | error => rfl
              | ok => rfl

/-- A run that succeeds has read a target list, compiled it and written the bindings. -/
theorem compile_files_eq_ok_iff :
    compile Tree.files c t = (.ok set, t') ↔ ∃ list text,
      t.read c.compiler.inputFile = .ok list ∧ Text.ofUtf8? list = some text ∧
        c.toCompiler.compileText text = .ok set ∧
        t.write c.compiler.outputFile (contents set) = .ok t' := by
  rw [compile_files]
  constructor
  · intro ran
    repeat' split at ran
    all_goals cases ran
    exact ⟨_, _, ‹_›, ‹_›, ‹_›, ‹_›⟩
  · rintro ⟨list, text, read, decoded, compiled, written⟩
    simp only [read, decoded, compiled, written]

/-- What stands in place of the target list after a run that succeeds, which never writes what it has read. -/
theorem read_input_of_run (ran : compile Tree.files c t = (.ok set, t')) :
    ∃ list, t.read c.compiler.inputFile = .ok list ∧ contents set ≠ list ∧
      t'.read c.compiler.inputFile =
        .ok (if t.SameFile c.compiler.inputFile c.compiler.outputFile then contents set else list) := by
  obtain ⟨list, text, read, decoded, compiled, written⟩ := compile_files_eq_ok_iff.mp ran
  refine ⟨list, read, ?_, Tree.read_of_write written read⟩
  rintro rfl
  rw [contents, Text.ofUtf8?_toUTF8, Option.some.injEq] at decoded
  subst decoded
  exact compileText_contents c set set compiled

/-- **The target list after a run.**  A run of an accepted configuration that succeeds keeps its target list exactly
when the two paths do not name the same file.  Otherwise the bindings stand in place of the list.  In a tree, which has
no links, two paths of names alone that differ never name the same file, so there the list is kept. -/
theorem input_of_run {yaml : String} (accepted : Config.ofText yaml = .ok c)
    (ran : compile Tree.files c t = (.ok set, t')) :
    (t'.read c.compiler.inputFile = t.read c.compiler.inputFile ↔
        ¬ t.SameFile c.compiler.inputFile c.compiler.outputFile) ∧
      (t.SameFile c.compiler.inputFile c.compiler.outputFile →
        t'.read c.compiler.inputFile = .ok (contents set)) ∧
      (Path.Plain c.compiler.inputFile → Path.Plain c.compiler.outputFile →
        t'.read c.compiler.inputFile = t.read c.compiler.inputFile) := by
  obtain ⟨list, read, differ, after⟩ := read_input_of_run ran
  have kept : t'.read c.compiler.inputFile = t.read c.compiler.inputFile ↔
      ¬ t.SameFile c.compiler.inputFile c.compiler.outputFile := by
    rw [after, read, Except.ok.injEq]
    split
    · rename_i same
      exact ⟨fun h => absurd h differ, fun h => absurd same h⟩
    · rename_i apart
      exact ⟨fun _ => apart, fun _ => rfl⟩
  have names := Config.ne_of_validate (Config.validate_of_ofText accepted)
  refine ⟨kept, fun same => ?_, fun plain plain' => kept.mpr fun same => ?_⟩
  · rw [after, if_pos same]
  · exact names (Tree.eq_of_sameFile plain plain' same)

/-- A target list of one line, in the directory in which the program runs. -/
def oneTarget : Tree := ({} : Tree).put ["targets.txt"] (.file "A#f\n".toUTF8)

theorem leads_oneTarget : oneTarget.Leads "targets.txt" [] "targets.txt" :=
  oneTarget.leads_of_name rfl (by decide) (by decide) (by decide)

/-- A run for this list succeeds wherever the bindings can be written. -/
theorem run_oneTarget (input : c.compiler.inputFile = "targets.txt") {directory : List String}
    {name : String} (leads : oneTarget.Leads c.compiler.outputFile directory name)
    (free : oneTarget.entry? (directory ++ [name]) ≠ some .directory) :
    ∃ set t', compile Tree.files c oneTarget = (.ok set, t') := by
  have read : oneTarget.read "targets.txt" = .ok "A#f\n".toUTF8 :=
    Tree.read_eq_ok_iff.mpr ⟨[], "targets.txt", leads_oneTarget, rfl⟩
  have readable : Compiler.Readable (Text.lines "A#f\n") := rfl
  exact ⟨_, _, compile_files_eq_ok_iff.mpr ⟨_, _, input ▸ read, Text.ofUtf8?_toUTF8 _,
    Compiler.compile_of_readable _ _ _ readable, Tree.write_eq_ok_iff.mpr ⟨_, _, leads, free, rfl⟩⟩⟩

theorem input_of_run_by_default :
    ∃ set t', Config.ofText "version: 1\n" = .ok { version := 1 } ∧
      compile Tree.files { version := 1 } oneTarget = (.ok set, t') ∧
      t'.read "targets.txt" = oneTarget.read "targets.txt" := by
  have accepted : Config.ofText "version: 1\n" = .ok { version := 1 } := by decide +kernel
  have leads : oneTarget.Leads "rules.json" [] "rules.json" :=
    oneTarget.leads_of_name rfl (by decide) (by decide) (by decide)
  have free : oneTarget.entry? ["rules.json"] = none := rfl
  obtain ⟨set, t', ran⟩ := run_oneTarget (c := { version := 1 }) rfl leads (by simp [free])
  exact ⟨set, t', accepted, ran, (input_of_run accepted ran).2.2 (by decide) (by decide)⟩

/-- **What is not compared.**  Where the path of the output is that of the input behind a component for the directory
in which the program runs, every run that succeeds loses its target list. -/
theorem input_lost_of_dot (ran : compile Tree.files c t = (.ok set, t'))
    (output : c.compiler.outputFile = "./" ++ c.compiler.inputFile)
    (relative : (Path.components c.compiler.inputFile).head? ≠ some "") :
    t'.read c.compiler.inputFile = .ok (contents set) ∧
      t'.read c.compiler.inputFile ≠ t.read c.compiler.inputFile := by
  obtain ⟨list, read, differ, after⟩ := read_input_of_run ran
  obtain ⟨_, _, leads, -⟩ := Tree.read_eq_ok_iff.mp read
  obtain ⟨_, _, -, -, -, written⟩ := compile_files_eq_ok_iff.mp ran
  obtain ⟨_, _, target, -⟩ := Tree.write_eq_ok_iff.mp written
  have same : t.SameFile c.compiler.inputFile c.compiler.outputFile := by
    rw [output] at target ⊢
    exact Tree.sameFile_dot relative target.short (by rw [leads.place?_eq]; rfl)
  rw [if_pos same] at after
  refine ⟨after, ?_⟩
  rw [after, read, ne_eq, Except.ok.injEq]
  exact differ

/-- Such a configuration is accepted, and a run of it succeeds. -/
theorem input_lost_by_output :
    ∃ set t', Config.ofText "version: 1\ncompiler:\n  output_file: ./targets.txt\n" =
        .ok { version := 1, compiler := { outputFile := "./targets.txt" } } ∧
      compile Tree.files { version := 1, compiler := { outputFile := "./targets.txt" } } oneTarget =
        (.ok set, t') ∧
      t'.read "targets.txt" = .ok (contents set) ∧
      t'.read "targets.txt" ≠ oneTarget.read "targets.txt" := by
  have relative : (Path.components "targets.txt").head? ≠ some "" := by decide
  have leads : oneTarget.Leads "./targets.txt" [] "targets.txt" :=
    leads_oneTarget.dot relative (by decide)
  have found : oneTarget.entry? ["targets.txt"] = some (.file "A#f\n".toUTF8) := rfl
  obtain ⟨set, t', ran⟩ := run_oneTarget (c := { version := 1, compiler := { outputFile := "./targets.txt" } })
    rfl leads (by simp [found])
  exact ⟨set, t', by decide +kernel, ran, input_lost_of_dot ran (by decide) relative⟩

end Command

end Metering
