import Mathlib.Data.List.Forall2
import Metering.Proofs.Attempt
import Metering.Yaml.Members

/-!
# Proofs — Yaml — Members

What a document writes, said without reading it: a node is a text, a boolean or a word, or a mapping that writes members
(`Writes`).  Each reader succeeds on what is written, and with nothing else.  Members are read one after another and
those that have been read are kept, so a name must be new to them as well as to those to come
(`readMembersFrom_eq_ok_iff`).
-/

namespace Metering.Yaml.Document

variable {β : Type} {d : Document} {n : Node}

/-! ### Scalars -/

/-- A node is a scalar with that text, whatever its form. -/
def IsText (d : Document) (n : Node) (text : String) : Prop :=
  ∃ style tag, d.resolve n = .scalar text style tag

/-- A node is a scalar that writes a boolean. -/
def IsBool (d : Document) (n : Node) (b : Bool) : Prop :=
  ∃ text style tag, d.resolve n = .scalar text style tag ∧ mayBe boolTag style tag = true ∧
    asBoolean text = some b

/-- A node is a scalar that writes a whole number below `2 ^ 32`. -/
def IsWord (d : Document) (n : Node) (w : UInt32) : Prop :=
  ∃ text style tag, d.resolve n = .scalar text style tag ∧ mayBe intTag style tag = true ∧
    unsigned UInt64.size text = some w.toNat

theorem readText_eq_ok_iff {expected text : String} :
    d.readText expected n = .ok text ↔ d.IsText n text := by
  unfold readText IsText
  cases d.resolve n <;> simp

theorem readString_eq_ok_iff {text : String} : d.readString n = .ok text ↔ d.IsText n text :=
  readText_eq_ok_iff

theorem readBool_eq_ok_iff {b : Bool} : d.readBool n = .ok b ↔ d.IsBool n b := by
  unfold readBool IsBool
  constructor
  · intro h
    split at h
    · rename_i text style tag there
      split at h
      · rename_i b' value
        cases h
        split at value
        · exact ⟨text, style, tag, there, ‹_›, value⟩
        · cases value
      · cases h
    · cases h
  · rintro ⟨text, style, tag, there, may, value⟩
    simp only [there, may, if_true, value]

theorem readWord_eq_ok_iff {w : UInt32} : d.readWord n = .ok w ↔ d.IsWord n w := by
  unfold readWord IsWord
  constructor
  · intro h
    split at h
    · rename_i text style tag there
      split at h
      · rename_i k value
        split at h
        · rename_i fits
          cases h
          split at value
          · exact ⟨text, style, tag, there, ‹_›, by rw [value, UInt32.toNat_ofNat_of_lt' fits]⟩
          · cases value
        · cases h
      · cases h
    · cases h
  · rintro ⟨text, style, tag, there, may, value⟩
    simp only [there, may, if_true, value, if_pos w.toNat_lt_size, UInt32.ofNat_toNat]

/-! ### Members -/

/-- A node is a mapping with those members; one that is left empty is a mapping without members. -/
inductive IsMapping (d : Document) (n : Node) : List (Node × Node) → Prop
  | members {members : List (Node × Node)} : d.resolve n = .mapping members → IsMapping d n members
  | empty {tag : Option Tag} : d.resolve n = .scalar "" .plain tag → IsMapping d n []

/-- Members of a mapping write entries: each key is the name of an entry, and each value is its value.  All names are
known, and none is repeated. -/
structure Writes (d : Document) (names : List String) (Value : String → Node → β → Prop)
    (members : List (Node × Node)) (entries : List (String × β)) : Prop where
  each : List.Forall₂ (fun m e => d.IsText m.1 e.1 ∧ Value e.1 m.2 e.2) members entries
  known : ∀ e ∈ entries, e.1 ∈ names
  once : (entries.map Prod.fst).Nodup

variable {names : List String} {Value : String → Node → β → Prop}
  {readValue : String → Node → Except Refusal β}

theorem writes_nil : d.Writes names Value [] ([] : List (String × β)) :=
  ⟨.nil, by simp, List.nodup_nil⟩

theorem writes_cons {m : Node × Node} {members : List (Node × Node)} {all : List (String × β)} :
    d.Writes names Value (m :: members) all ↔ ∃ name b entries, all = (name, b) :: entries ∧
      d.IsText m.1 name ∧ name ∈ names ∧ Value name m.2 b ∧ d.Writes names Value members entries ∧
        name ∉ entries.map Prod.fst := by
  constructor
  · rintro ⟨each, known, once⟩
    obtain ⟨⟨name, b⟩, entries, ⟨key, value⟩, rest, rfl⟩ := List.forall₂_cons_left_iff.mp each
    rw [List.forall_mem_cons] at known
    rw [List.map_cons, List.nodup_cons] at once
    exact ⟨name, b, entries, rfl, key, known.1, value, ⟨rest, known.2, once.2⟩, once.1⟩
  · rintro ⟨name, b, entries, rfl, key, known, value, ⟨each, known', once⟩, new⟩
    exact ⟨.cons ⟨key, value⟩ each, List.forall_mem_cons.mpr ⟨known, known'⟩,
      List.nodup_cons.mpr ⟨new, once⟩⟩

/-- Every entry is written by a member. -/
theorem Writes.exists_member {members : List (Node × Node)} {entries : List (String × β)}
    (h : d.Writes names Value members entries) {e : String × β} (he : e ∈ entries) :
    ∃ m ∈ members, d.IsText m.1 e.1 ∧ Value e.1 m.2 e.2 := by
  obtain ⟨each, -, -⟩ := h
  induction each with
  | nil => cases he
  | cons first _ ih =>
      rcases List.mem_cons.mp he with rfl | later
      · exact ⟨_, List.mem_cons_self, first⟩
      · obtain ⟨m, hm, written⟩ := ih later
        exact ⟨m, List.mem_cons_of_mem _ hm, written⟩

/-- Members are read if they write entries of which none has been read already. -/
theorem readMembersFrom_eq_ok_iff
    (values : ∀ name ∈ names, ∀ n b, readValue name n = .ok b ↔ Value name n b)
    {members : List (Node × Node)} {read all : List (String × β)} :
    d.readMembersFrom names readValue read members = .ok all ↔ ∃ entries,
      all = read.reverse ++ entries ∧ d.Writes names Value members entries ∧
        ∀ e ∈ entries, e.1 ∉ read.map Prod.fst := by
  induction members generalizing read with
  | nil =>
      rw [readMembersFrom, Except.ok.injEq]
      constructor
      · rintro rfl
        exact ⟨[], by simp, writes_nil, by simp⟩
      · rintro ⟨entries, rfl, written, -⟩
        cases written.each
        simp
  | cons m members ih =>
      obtain ⟨key, value⟩ := m
      have seen (name : String) : (read.any fun m => m.1 = name) = true ↔ name ∈ read.map Prod.fst := by
        simp
      rw [readMembersFrom, bind_eq_ok_iff]
      constructor
      · rintro ⟨name, text, h⟩
        split at h
        · cases h
        · rename_i known
          split at h
          · cases h
          · rename_i new
            rw [seen] at new
            obtain ⟨b, found, h⟩ := bind_eq_ok_iff.mp h
            obtain ⟨entries, rfl, written, apart⟩ := ih.mp h
            have known := Decidable.of_not_not known
            -- those to come were read with this name among the names that have been read, so none of them has it
            refine ⟨(name, b) :: entries, by simp, writes_cons.mpr ⟨name, b, entries, rfl,
              readText_eq_ok_iff.mp text, known, (values name known value b).mp (mapError_eq_ok_iff.mp found),
              written, fun there => ?_⟩, List.forall_mem_cons.mpr ⟨new, fun e he there =>
                apart e he (List.mem_cons_of_mem _ there)⟩⟩
            obtain ⟨e, he, rfl⟩ := List.mem_map.mp there
            exact apart e he List.mem_cons_self
      · rintro ⟨all, rfl, written, apart⟩
        obtain ⟨name, b, entries, rfl, text, known, found, written, new⟩ := writes_cons.mp written
        obtain ⟨first, apart⟩ := List.forall_mem_cons.mp apart
        refine ⟨name, readText_eq_ok_iff.mpr text, ?_⟩
        rw [if_neg (fun unknown => unknown known), if_neg (fun old => first ((seen name).mp old))]
        refine bind_eq_ok_iff.mpr ⟨b, mapError_eq_ok_iff.mpr ((values name known value b).mpr found),
          ih.mpr ⟨entries, by simp, written, fun e he there => ?_⟩⟩
        rcases List.mem_cons.mp there with same | old
        · exact new (List.mem_map.mpr ⟨e, he, same⟩)
        · exact apart e he old

/-- **Reading members** succeeds on a mapping that writes entries, and gives these. -/
theorem readMembers_eq_ok_iff (expected : String)
    (values : ∀ name ∈ names, ∀ n b, readValue name n = .ok b ↔ Value name n b)
    {entries : List (String × β)} :
    d.readMembers expected names readValue n = .ok entries ↔ ∃ members,
      d.IsMapping n members ∧ d.Writes names Value members entries := by
  unfold readMembers
  constructor
  · intro h
    split at h
    · rename_i members there
      obtain ⟨entries, rfl, written, -⟩ := (readMembersFrom_eq_ok_iff values).mp h
      exact ⟨members, .members there, written⟩
    · cases h
      exact ⟨[], .empty ‹_›, writes_nil⟩
    · cases h
  · rintro ⟨members, mapping, written⟩
    cases mapping with
    | members there =>
        rw [there]
        exact (readMembersFrom_eq_ok_iff values).mpr ⟨entries, rfl, written, by simp⟩
    | empty there =>
        cases written.each
        rw [there]
        rfl

end Metering.Yaml.Document
