import Mathlib.Data.List.Basic
import Mathlib.Data.List.Induction
import Mathlib.Data.Set.List
import Metering.Proofs.Attempt
import Metering.Text.Lines

/-!
# Proofs — Text — Utf8

Lines of byte strings in UTF-8.  A character of ASCII is one byte, and this byte is part of no other character
(`mem_encode_iff`); so line feeds and carriage returns are the same ones in a text and in its bytes, and the lines of
the bytes are the bytes of the lines (`linesAt_encode`).  In the other direction, bytes encode a text when each of their
lines does (`encodes_of_linesAt`).  Together: to decode the lines is to decode the whole and take its lines
(`mapM_ofUtf8?_byteLines`).
-/

namespace Metering.Text

/-! ### Bytes of characters -/

/-- The bytes of characters in UTF-8. -/
def encode (cs : List Char) : List UInt8 := cs.flatMap String.utf8EncodeChar

theorem encode_append (cs ds : List Char) : encode (cs ++ ds) = encode cs ++ encode ds :=
  List.flatMap_append

theorem encode_singleton (c : Char) : encode [c] = String.utf8EncodeChar c :=
  List.flatMap_singleton ..

theorem encode_eq_nil_iff {cs : List Char} : encode cs = [] ↔ cs = [] := by
  rw [encode, List.flatMap_eq_nil_iff]
  refine ⟨fun h => List.eq_nil_iff_forall_not_mem.mpr fun c hc => ?_, ?_⟩
  · exact String.utf8EncodeChar_ne_nil (h c hc)
  · rintro rfl c hc
    cases hc

theorem encode_intercalate (cs : List Char) (ps : List (List Char)) :
    encode (cs.intercalate ps) = (encode cs).intercalate (ps.map encode) := by
  induction ps with
  | nil => rfl
  | cons p ps ih =>
      cases ps with
      | nil => rw [List.map_singleton, List.intercalate_singleton, List.intercalate_singleton]
      | cons q ps =>
          rw [List.intercalate_cons_cons, encode_append, encode_append, ih, List.map_cons,
            List.map_cons, List.map_cons, List.intercalate_cons_cons]

theorem utf8EncodeChar_of_ascii {c : Char} (h : c.toNat ≤ 127) :
    String.utf8EncodeChar c = [UInt8.ofNat c.toNat] := by
  rw [String.utf8EncodeChar]
  exact if_pos h

/-- A character outside of ASCII has no byte below 128. -/
theorem le_of_mem_utf8EncodeChar {c : Char} (h : 127 < c.toNat) {b : UInt8}
    (hb : b ∈ String.utf8EncodeChar c) : 128 ≤ b.toNat := by
  have large : ¬ c.val.toNat ≤ 127 := Nat.not_le.mpr h
  rw [String.utf8EncodeChar] at hb
  simp only [large, if_false] at hb
  split at hb
  · simp only [List.mem_cons, List.not_mem_nil, or_false] at hb
    rcases hb with rfl | rfl <;> rw [UInt8.toNat_ofNat'] <;> omega
  · split at hb
    · simp only [List.mem_cons, List.not_mem_nil, or_false] at hb
      rcases hb with rfl | rfl | rfl <;> rw [UInt8.toNat_ofNat'] <;> omega
    · simp only [List.mem_cons, List.not_mem_nil, or_false] at hb
      rcases hb with rfl | rfl | rfl | rfl <;> rw [UInt8.toNat_ofNat'] <;> omega

/-- The byte of a character of ASCII is in no other character. -/
theorem mem_utf8EncodeChar_iff {a c : Char} (ascii : a.toNat ≤ 127) :
    UInt8.ofNat a.toNat ∈ String.utf8EncodeChar c ↔ c = a := by
  refine ⟨fun h => ?_, ?_⟩
  · have value : (UInt8.ofNat a.toNat).toNat = a.toNat := by
      rw [UInt8.toNat_ofNat']
      omega
    have small : c.toNat ≤ 127 := by
      by_contra large
      have := le_of_mem_utf8EncodeChar (Nat.not_le.mp large) h
      omega
    rw [utf8EncodeChar_of_ascii small, List.mem_singleton, ← UInt8.toNat_inj, value,
      UInt8.toNat_ofNat'] at h
    rw [← Char.ofNat_toNat c, ← Char.ofNat_toNat a, h, Nat.mod_eq_of_lt (by omega)]
  · rintro rfl
    rw [utf8EncodeChar_of_ascii ascii]
    exact List.mem_singleton_self _

theorem mem_encode_iff {a : Char} (ascii : a.toNat ≤ 127) {cs : List Char} :
    UInt8.ofNat a.toNat ∈ encode cs ↔ a ∈ cs := by
  rw [encode, List.mem_flatMap]
  refine ⟨?_, fun h => ⟨a, h, (mem_utf8EncodeChar_iff ascii).mpr rfl⟩⟩
  rintro ⟨c, hc, hb⟩
  rwa [(mem_utf8EncodeChar_iff ascii).mp hb] at hc

/-! ### Lines of bytes -/

/-- The byte of a line feed. -/
theorem encode_feed : encode ['\n'] = [10] := rfl

/-- The byte of a carriage return. -/
theorem encode_return : encode ['\r'] = [13] := rfl

theorem pieces_encode (cs : List Char) :
    pieces 10 (encode cs) = (pieces '\n' cs).map encode := by
  conv_lhs => rw [← intercalate_pieces '\n' cs, encode_intercalate, encode_feed]
  refine pieces_intercalate (fun h => pieces_ne_nil '\n' cs (List.map_eq_nil_iff.mp h))
    fun p hp feed => ?_
  obtain ⟨q, hq, rfl⟩ := List.mem_map.mp hp
  exact not_mem_of_mem_pieces hq ((mem_encode_iff (a := '\n') (by decide)).mp feed)

theorem withoutReturn_encode (cs : List Char) :
    withoutReturn 13 (encode cs) = encode (withoutReturn '\r' cs) := by
  induction cs using List.reverseRecOn with
  | nil => rfl
  | append_singleton cs c =>
      by_cases h : c = '\r'
      · rw [h, withoutReturn, withoutReturn, encode_append, encode_return, List.getLast?_concat,
          List.getLast?_concat, if_pos rfl, if_pos rfl, List.dropLast_concat, List.dropLast_concat]
      · have other : (encode (cs ++ [c])).getLast? ≠ some 13 := by
          rw [encode_append, encode_singleton,
            List.getLast?_append_of_ne_nil _ String.utf8EncodeChar_ne_nil]
          intro last
          exact h ((mem_utf8EncodeChar_iff (a := '\r') (by decide)).mp
            (List.mem_of_getLast? last))
        have other' : (cs ++ [c]).getLast? ≠ some '\r' := by
          rw [List.getLast?_concat]
          exact fun e => h (Option.some.inj e)
        rw [withoutReturn, withoutReturn, if_neg other, if_neg other']

/-- **The lines of the bytes** of a text are the bytes of its lines. -/
theorem linesAt_encode (cs : List Char) :
    linesAt 10 13 (encode cs) = (linesAt '\n' '\r' cs).map encode := by
  simp only [linesAt, pieces_encode, List.map_append, List.map_map, ← List.map_dropLast,
    List.getLast?_map]
  congr 1
  · exact List.map_congr_left fun p _ => withoutReturn_encode p
  · cases (pieces '\n' cs).getLast? with
    | none => rfl
    | some p => by_cases empty : p = [] <;> simp [empty, encode_eq_nil_iff]

/-! ### From lines back to the whole -/

/-- Bytes that encode a text. -/
def Encodes (bytes : List UInt8) : Prop := bytes ∈ Set.range encode

theorem encodes_of_withoutReturn {bs : List UInt8} (h : Encodes (withoutReturn 13 bs)) :
    Encodes bs := by
  unfold withoutReturn at h
  split at h
  · rename_i last
    obtain ⟨cs, e⟩ := h
    refine ⟨cs ++ ['\r'], ?_⟩
    rw [encode_append, e, encode_return, List.dropLast_append_getLast? _ last]
  · exact h

/-- **Bytes encode a text** when each of their lines does. -/
theorem encodes_of_linesAt {bs : List UInt8} (h : ∀ line ∈ linesAt 10 13 bs, Encodes line) :
    Encodes bs := by
  have ne := pieces_ne_nil 10 bs
  have each : ∀ p ∈ pieces 10 bs, Encodes p := by
    intro p hp
    rw [← List.dropLast_concat_getLast ne, List.mem_append, List.mem_singleton] at hp
    rcases hp with ended | rfl
    · exact encodes_of_withoutReturn (h _ (List.mem_append_left _ (List.mem_map_of_mem ended)))
    · -- what follows the last line feed is a line unless it is empty
      by_cases empty : (pieces 10 bs).getLast ne = []
      · exact ⟨[], empty.symm⟩
      · refine h _ (List.mem_append_right _ ?_)
        rw [List.getLast?_eq_some_getLast ne]
        simp [empty]
  obtain ⟨ps, e⟩ : pieces 10 bs ∈ Set.range (List.map encode) := by
    rw [Set.range_list_map]
    exact each
  refine ⟨['\n'].intercalate ps, ?_⟩
  rw [encode_intercalate, e, encode_feed, intercalate_pieces]

/-! ### Byte strings -/

theorem toList_toUTF8 (s : String) : s.toUTF8.data.toList = encode s.toList := by
  rw [String.toUTF8_eq_toByteArray]
  conv_lhs => rw [← String.ofList_toList (s := s), String.toByteArray_ofList]
  exact List.toList_data_toByteArray

theorem ofUtf8?_eq_some_iff {bytes : ByteArray} {s : String} :
    ofUtf8? bytes = some s ↔ bytes.data.toList = encode s.toList := by
  refine ⟨fun h => ?_, fun h => ?_⟩
  · rw [ofUtf8?, String.fromUTF8?] at h
    split at h
    · rename_i valid
      cases h
      exact toList_toUTF8 (String.fromUTF8 bytes valid)
    · cases h
  · have same : bytes = s.toUTF8 := ByteArray.ext (Array.toList_inj.mp (by rw [h, toList_toUTF8]))
    rw [same, ofUtf8?_toUTF8]

/-- **Lines decoded** one by one are the lines of the whole decoded; there are none if any byte is out of place. -/
theorem mapM_ofUtf8?_byteLines (bytes : ByteArray) :
    (byteLines bytes).mapM ofUtf8? = (ofUtf8? bytes).map lines := by
  cases whole : ofUtf8? bytes with
  | some s =>
      rw [Option.map_some, mapM_eq_some_iff, byteLines, ofUtf8?_eq_some_iff.mp whole,
        linesAt_encode, lines, List.map_map, List.map_map, List.map_map]
      refine List.map_congr_left fun line _ => ofUtf8?_eq_some_iff.mpr ?_
      rw [String.toList_ofList]
  | none =>
      rw [Option.map_none, Option.eq_none_iff_forall_ne_some]
      intro ls decoded
      rw [mapM_eq_some_iff, byteLines, List.map_map] at decoded
      obtain ⟨cs, e⟩ : Encodes bytes.data.toList := encodes_of_linesAt fun line hl => by
        obtain ⟨s, -, hs⟩ := List.mem_map.mp (decoded ▸ List.mem_map_of_mem hl)
        exact ⟨s.toList, (ofUtf8?_eq_some_iff.mp hs.symm).symm⟩
      have : ofUtf8? bytes = some (String.ofList cs) :=
        ofUtf8?_eq_some_iff.mpr (by rw [String.toList_ofList, e])
      rw [this] at whole
      cases whole

end Metering.Text
