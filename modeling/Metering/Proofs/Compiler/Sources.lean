import Metering.Proofs.Compiler.Refusal
import Metering.Proofs.Text.Lines
import Metering.Proofs.Text.Utf8

/-!
# Proofs — Compiler — Sources

Target lists given as lines, as a text or as bytes.  A result depends on nothing but the lines without their carriage
returns (`compile_congr`), and blank lines at the end do not show in it (`compile_append_of_blank`); so the ways in
which a text is cut agree.  Bytes that encode a text have the lines of that text; bytes that do not are refused before any
line is read, and only these, as no line is refused in that way.
-/

namespace Metering.Compiler

/-! ### What a result depends on -/

theorem readLine_congr (c : Compiler) (p : Progress) (number : Nat) {raw raw' : String}
    (h : Text.withoutReturns raw = Text.withoutReturns raw') :
    c.readLine p number raw = c.readLine p number raw' := by
  unfold readLine
  rw [h]

theorem readLines_congr (c : Compiler) {xs ys : List String}
    (h : xs.map Text.withoutReturns = ys.map Text.withoutReturns) (p : Progress) (number : Nat) :
    c.readLines p number xs = c.readLines p number ys := by
  induction xs generalizing ys p number with
  | nil =>
      rw [List.map_nil, eq_comm, List.map_eq_nil_iff] at h
      rw [h]
  | cons raw rest ih =>
      obtain ⟨raw', rest', rfl, same, others⟩ := List.map_eq_cons_iff.mp h.symm
      rw [readLines, readLines, readLine_congr c p number same]
      cases c.readLine p number raw with
      | error fault => rfl
      | ok p' => exact ih others.symm p' (number + 1)

theorem compile_congr (c : Compiler) {xs ys : List String}
    (h : xs.map Text.withoutReturns = ys.map Text.withoutReturns) : c.compile xs = c.compile ys := by
  rw [compile, compile, readLines_congr c h]

theorem readLines_of_blank (c : Compiler) {lines : List String}
    (blank : ∀ raw ∈ lines, Text.isBlank (Text.withoutReturns raw) = true) (p : Progress)
    (number : Nat) : c.readLines p number lines = .ok p := by
  induction lines generalizing number with
  | nil => rfl
  | cons raw rest ih =>
      rw [List.forall_mem_cons] at blank
      have passed : c.readLine p number raw = .ok p := if_pos (.inl blank.1)
      rw [readLines, passed]
      exact ih blank.2 (number + 1)

theorem compile_append_of_blank (c : Compiler) (lines : List String) {rest : List String}
    (blank : ∀ raw ∈ rest, Text.isBlank (Text.withoutReturns raw) = true) :
    c.compile (lines ++ rest) = c.compile lines := by
  rw [compile, compile, readLines_append]
  cases c.readLines {} 1 lines with
  | error fault => rfl
  | ok p => rw [bind_ok, readLines_of_blank c blank]

/-! ### Texts -/

theorem compile_linesAtFeeds (c : Compiler) (text : String) :
    c.compile (Text.linesAtFeeds text) = c.compileText text := by
  obtain ⟨rest, empty, same⟩ := Text.map_withoutReturns_linesAtFeeds text
  rw [compile_congr c same, compileText]
  refine compile_append_of_blank c _ fun raw mem => ?_
  rw [empty raw mem]
  rfl

theorem compileText_feedsWithReturns (c : Compiler) (text : String) :
    c.compileText (Text.feedsWithReturns text) = c.compileText text := by
  rw [← compile_linesAtFeeds, ← compile_linesAtFeeds]
  exact compile_congr c (Text.map_withoutReturns_feedsWithReturns text)

/-! ### Bytes -/

/-- Why bytes are refused that encode no text. -/
def undecoded : String := "read targets failed: stream did not contain valid UTF-8"

theorem compileBytes_eq (c : Compiler) (bytes : ByteArray) :
    c.compileBytes bytes =
      match Text.ofUtf8? bytes with
      | none => .error (.io undecoded)
      | some text => c.compileText text := by
  rw [compileBytes, Text.mapM_ofUtf8?_byteLines]
  cases Text.ofUtf8? bytes with
  | none => rfl
  | some text => rfl

theorem compileBytes_of_valid (c : Compiler) {bytes : ByteArray} (valid : bytes.IsValidUTF8) :
    c.compileBytes bytes = c.compileText (String.fromUTF8 bytes valid) := by
  have decoded : Text.ofUtf8? bytes = some (String.fromUTF8 bytes valid) := dif_pos valid
  rw [compileBytes_eq, decoded]

theorem compileBytes_of_invalid (c : Compiler) {bytes : ByteArray} (invalid : ¬ bytes.IsValidUTF8) :
    c.compileBytes bytes = .error (.io undecoded) := by
  have undecodable : Text.ofUtf8? bytes = none := dif_neg invalid
  rw [compileBytes_eq, undecodable]

theorem compile_ne_io (c : Compiler) (lines : List String) (reason : String) :
    c.compile lines ≠ .error (.io reason) := by
  intro failed
  rcases compile_or_refuse c lines with ⟨-, set, compiled⟩ | ⟨-, number, reason', refused⟩
  · rw [compiled] at failed
    cases failed
  · rw [refused] at failed
    cases failed

/-- **Sources.**  Bytes are refused as such exactly when they are no UTF-8, whatever their lines are; other bytes give
the result of the text that they encode.  A text gives the same result, faults included, when it is cut at its line
feeds and nowhere else, and when a carriage return is put before each of them. -/
theorem results_of_sources (c : Compiler) :
    (∀ bytes reason, c.compileBytes bytes = .error (.io reason) ↔
      ¬ bytes.IsValidUTF8 ∧ reason = "read targets failed: stream did not contain valid UTF-8") ∧
    (∀ bytes (valid : bytes.IsValidUTF8),
      c.compileBytes bytes = c.compileText (String.fromUTF8 bytes valid)) ∧
    ∀ text, c.compile (Text.linesAtFeeds text) = c.compileText text ∧
      c.compileText (Text.feedsWithReturns text) = c.compileText text := by
  refine ⟨fun bytes reason => ⟨fun failed => ?_, ?_⟩, fun bytes valid =>
    compileBytes_of_valid c valid, fun text =>
    ⟨compile_linesAtFeeds c text, compileText_feedsWithReturns c text⟩⟩
  · have invalid : ¬ bytes.IsValidUTF8 := by
      intro valid
      rw [compileBytes_of_valid c valid] at failed
      exact compile_ne_io c _ reason failed
    rw [compileBytes_of_invalid c invalid] at failed
    cases failed
    exact ⟨invalid, rfl⟩
  · rintro ⟨invalid, rfl⟩
    exact compileBytes_of_invalid c invalid

/-- A text whose third line is malformed, with characters of two bytes and carriage returns: one fault from its bytes,
its pieces and its copy with more carriage returns.  A malformed line before a byte that is out of place is not
reported. -/
theorem results_of_malformed_line :
    let c := Compiler.new .all ⟨"H", "app.Main", "main", "registerMBean", "p:t=S"⟩
    let text := "é#x\r\n\né\r\r\n"
    let fault := Fault.inputFormat 3 "missing '#' separator in \"é\""
    let broken : ByteArray := ⟨#[97, 10, 255]⟩
    (text.toUTF8.IsValidUTF8 ∧ c.compileBytes text.toUTF8 = .error fault ∧
      c.compile (Text.linesAtFeeds text) = .error fault ∧
      c.compileText (Text.feedsWithReturns text) = .error fault) ∧
    ¬ broken.IsValidUTF8 ∧ c.compileBytes broken =
      .error (.io "read targets failed: stream did not contain valid UTF-8") := by
  intro c text fault broken
  obtain ⟨refused, decoded, cut⟩ := results_of_sources c
  have compiled : c.compileText text = .error fault := by
    have lines : Text.lines text = ["é#x", ""] ++ "é\r" :: [] := by decide +kernel
    have reason : Target.Flaw.noSeparator.reason (Text.withoutReturns "é\r") =
        "missing '#' separator in \"é\"" := by
      decide +kernel
    have flawed : Target.Flaw.noSeparator.Of (Text.withoutReturns "é\r") :=
      show separator ∉ (Text.withoutReturns "é\r").toList by decide +kernel
    rw [compileText, lines, compile_of_first (by decide +kernel) (by decide +kernel) flawed, reason]
    rfl
  have invalid : ¬ broken.IsValidUTF8 := by decide +kernel
  have valid : text.toUTF8.IsValidUTF8 := text.isValidUTF8
  refine ⟨⟨valid, ?_, ?_, ?_⟩, invalid, (refused broken _).mpr ⟨invalid, rfl⟩⟩
  · rw [decoded text.toUTF8 valid]
    exact compiled
  · rw [(cut text).1, compiled]
  · rw [(cut text).2, compiled]

end Metering.Compiler
