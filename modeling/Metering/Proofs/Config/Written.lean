import Metering.Config.Load
import Metering.Proofs.Yaml.Members

/-!
# Proofs — Config — Written

The configuration that a document writes, whether it is valid or not (`Written`).  A section is a list of members, and
so is a configuration, whose members are its parts: what is written is taken as it is, and a default fills in for what
is not (`Filled`).  Members are set one after another, and since none comes twice the last word on each is what was
written of it (`filled_foldl`).  Reading a document succeeds with exactly what it writes (`ofDocument_eq_ok_iff`).
-/

namespace Metering

open Yaml (Document Node)

namespace Config

variable {β : Type}

/-! ### Members and defaults -/

/-- Members as they are written, and the defaults for those that are not. -/
def Filled (written defaults filled : List (String × β)) : Prop :=
  ∀ m, m ∈ filled ↔ m ∈ written ∨ m ∈ defaults ∧ m.1 ∉ written.map Prod.fst

theorem member_eq_none_iff {members : List (String × β)} {name : String} :
    member members name = none ↔ name ∉ members.map Prod.fst := by
  rw [member, Option.map_eq_none_iff, List.find?_eq_none, List.mem_map]
  exact ⟨fun h ⟨m, hm, e⟩ => h m hm (decide_eq_true e), fun h m hm e => h ⟨m, hm, of_decide_eq_true e⟩⟩

theorem member_eq_some_iff {members : List (String × β)} (once : (members.map Prod.fst).Nodup)
    {name : String} {b : β} : member members name = some b ↔ (name, b) ∈ members := by
  induction members with
  | nil => simp [member]
  | cons m members ih =>
      rw [List.map_cons, List.nodup_cons] at once
      rw [List.mem_cons, ← ih once.2, member, List.find?_cons]
      by_cases here : m.1 = name
      · have absent : member members name = none := member_eq_none_iff.mpr (here ▸ once.1)
        rw [absent, decide_eq_true here]
        simp [Prod.ext_iff, here, eq_comm]
      · rw [decide_eq_false here]
        simp [member, Prod.ext_iff, Ne.symm here]

/-- Lists of members with the same names in the same order are the same if one has the members of the other. -/
theorem eq_of_subset {a b : List (String × β)} (names : a.map Prod.fst = b.map Prod.fst)
    (once : (b.map Prod.fst).Nodup) (h : a ⊆ b) : a = b := by
  induction a generalizing b with
  | nil => exact (List.map_eq_nil_iff.mp names.symm).symm
  | cons m a ih =>
      obtain ⟨m', b, rfl⟩ := List.exists_cons_of_ne_nil (fun none => by simp [none] at names : b ≠ [])
      rw [List.map_cons, List.map_cons, List.cons.injEq] at names
      rw [List.map_cons, List.nodup_cons] at once
      have new {x : String × β} (hx : x ∈ b) : x.1 ≠ m'.1 := fun e => once.1 (List.mem_map.mpr ⟨x, hx, e⟩)
      rw [List.cons_subset] at h
      have first : m = m' := (List.mem_cons.mp h.1).resolve_right fun later => new later names.1
      refine congrArg₂ _ first (ih names.2 once.2 fun x hx => ?_)
      refine (List.mem_cons.mp (h.2 hx)).resolve_left fun e => once.1 ?_
      rw [← names.2, ← e]
      exact List.mem_map.mpr ⟨x, hx, rfl⟩

/-- Filling in is done name by name. -/
theorem filled_iff {written defaults filled : List (String × β)} (once : (written.map Prod.fst).Nodup)
    (known : ∀ m ∈ written, m.1 ∈ defaults.map Prod.fst) (distinct : (defaults.map Prod.fst).Nodup)
    (names : filled.map Prod.fst = defaults.map Prod.fst) :
    Filled written defaults filled ↔
      filled = defaults.map fun m => (m.1, (member written m.1).getD m.2) := by
  have fills : Filled written defaults (defaults.map fun m => (m.1, (member written m.1).getD m.2)) := by
    rintro ⟨name, b⟩
    rw [List.mem_map]
    constructor
    · rintro ⟨m, hm, e⟩
      obtain ⟨rfl, rfl⟩ := Prod.mk.inj e
      cases found : member written m.1 with
      | none => exact .inr ⟨hm, member_eq_none_iff.mp found⟩
      | some b => exact .inl ((member_eq_some_iff once).mp found)
    · rintro (there | ⟨there, absent⟩)
      · obtain ⟨m, hm, rfl⟩ := List.mem_map.mp (known _ there)
        exact ⟨m, hm, by rw [(member_eq_some_iff once).mpr there]; rfl⟩
      · exact ⟨_, there, by rw [member_eq_none_iff.mpr absent]; rfl⟩
  constructor
  · intro h
    have same : (defaults.map fun m => (m.1, (member written m.1).getD m.2)).map Prod.fst =
        defaults.map Prod.fst := by
      rw [List.map_map]
      rfl
    exact eq_of_subset (names.trans same.symm) (same ▸ distinct) fun m hm => (fills m).mpr ((h m).mp hm)
  · rintro rfl
    exact fills

/-- A record whose members are those written, and the defaults elsewhere, is told by them. -/
theorem eq_iff_filled {α : Type} {toMembers : α → List (String × β)} {names : List String}
    {written : List (String × β)} {default made a : α} (injective : Function.Injective toMembers)
    (named : ∀ a, (toMembers a).map Prod.fst = names) (distinct : names.Nodup)
    (once : (written.map Prod.fst).Nodup) (known : ∀ m ∈ written, m.1 ∈ names)
    (filled : toMembers made = (toMembers default).map fun m => (m.1, (member written m.1).getD m.2)) :
    made = a ↔ Filled written (toMembers default) (toMembers a) := by
  rw [filled_iff once (named default ▸ known) (named default ▸ distinct)
    ((named a).trans (named default).symm), ← filled, injective.eq_iff, eq_comm]

/-- **A section in a document**: its members are written in part, and its defaults fill in for the others. -/
def WritesSection (d : Document) (n : Node) (names : List String) (Value : Node → β → Prop)
    (defaults filled : List (String × β)) : Prop :=
  ∃ members written, d.IsMapping n members ∧ d.Writes names (fun _ => Value) members written ∧
    Filled written defaults filled

theorem readSection_eq_ok_iff {α : Type} {d : Document} {n : Node} {names : List String}
    {readValue : Node → Except Yaml.Refusal β} {Value : Node → β → Prop} {defaults filled : List (String × β)}
    {make : List (String × β) → α} {a : α} (expected : String)
    (values : ∀ n b, readValue n = .ok b ↔ Value n b)
    (made : ∀ {written : List (String × β)}, (written.map Prod.fst).Nodup → (∀ m ∈ written, m.1 ∈ names) →
      (make written = a ↔ Filled written defaults filled)) :
    (∃ written, d.readMembers expected names (fun _ => readValue) n = .ok written ∧ make written = a) ↔
      WritesSection d n names Value defaults filled := by
  have values' : ∀ name ∈ names, ∀ n b, readValue n = .ok b ↔ Value n b := fun _ _ => values
  constructor
  · rintro ⟨written, found, makes⟩
    obtain ⟨members, mapping, writes⟩ := (Document.readMembers_eq_ok_iff expected values').mp found
    exact ⟨members, written, mapping, writes, (made writes.once writes.known).mp makes⟩
  · rintro ⟨members, written, mapping, writes, fills⟩
    exact ⟨written, (Document.readMembers_eq_ok_iff expected values').mpr ⟨members, mapping, writes⟩,
      (made writes.once writes.known).mpr fills⟩

/-! ### Sections -/

/-- The members of a section, by their names. -/
def CompilerSection.toMembers (s : CompilerSection) : List (String × String) :=
  names.zip [s.inputFile, s.outputFile, s.helper, s.constructor, s.lifecycleMethod]

/-- The members of a section, by their names. -/
def RegistrationSection.toMembers (s : RegistrationSection) : List (String × String) :=
  names.zip [s.entity, s.operation, s.action, s.objectName]

theorem CompilerSection.toMembers_injective : Function.Injective toMembers := by
  rintro ⟨⟩ ⟨⟩ h
  simpa [toMembers, names] using h

theorem RegistrationSection.toMembers_injective : Function.Injective toMembers := by
  rintro ⟨⟩ ⟨⟩ h
  simpa [toMembers, names] using h

theorem toMembers_features_injective : Function.Injective Features.toMembers := by
  rintro ⟨⟩ ⟨⟩ h
  simpa [Features.toMembers, Features.names] using h

theorem CompilerSection.ofMembers_eq_iff {written : List (String × String)} {s : CompilerSection}
    (once : (written.map Prod.fst).Nodup) (known : ∀ m ∈ written, m.1 ∈ names) :
    ofMembers written = s ↔ Filled written ({} : CompilerSection).toMembers s.toMembers :=
  eq_iff_filled toMembers_injective (fun _ => rfl) (by decide) once known rfl

theorem RegistrationSection.ofMembers_eq_iff {written : List (String × String)} {s : RegistrationSection}
    (once : (written.map Prod.fst).Nodup) (known : ∀ m ∈ written, m.1 ∈ names) :
    ofMembers written = s ↔ Filled written ({} : RegistrationSection).toMembers s.toMembers :=
  eq_iff_filled toMembers_injective (fun _ => rfl) (by decide) once known rfl

theorem features_ofNames_eq_iff {written : List (String × Bool)} {f : Features}
    (once : (written.map Prod.fst).Nodup) (known : ∀ m ∈ written, m.1 ∈ Features.names) :
    Features.ofNames (fun name => (member written name).getD false) = f ↔
      Filled written ({} : Features).toMembers f.toMembers :=
  eq_iff_filled toMembers_features_injective (fun _ => rfl) (by decide) once known rfl

/-! ### Parts -/

/-- The name of the member that a part is read from. -/
def Part.name : Part → String
  | version _ => "version"
  | compiler _ => "compiler"
  | registration _ => "registration"
  | features _ => "features"

/-- The parts of a configuration, by their names. -/
def toParts (c : Config) : List (String × Part) :=
  names.zip [.version c.version, .compiler c.compiler, .registration c.registration, .features c.features]

theorem toParts_injective : Function.Injective toParts := by
  rintro ⟨⟩ ⟨⟩ h
  simpa [toParts, names] using h

theorem mem_toParts_withPart {c : Config} {p : Part} {m : String × Part} :
    m ∈ (c.withPart p).toParts ↔ m = (p.name, p) ∨ m ∈ c.toParts ∧ m.1 ≠ p.name := by
  obtain ⟨name, q⟩ := m
  cases p <;> simp [withPart, toParts, names, Part.name] <;> grind

/-- Setting parts one after another fills them in. -/
theorem filled_foldl {parts : List (String × Part)} (once : (parts.map Prod.fst).Nodup)
    (named : ∀ m ∈ parts, m.1 = m.2.name) (c : Config) :
    Filled parts c.toParts (parts.foldl (fun c p => c.withPart p.2) c).toParts := by
  induction parts generalizing c with
  | nil => simp [Filled]
  | cons p parts ih =>
      rw [List.map_cons, List.nodup_cons] at once
      obtain ⟨first, named⟩ := List.forall_mem_cons.mp named
      intro m
      rw [List.foldl_cons, ih once.2 named _ m, mem_toParts_withPart, List.map_cons, List.mem_cons, List.mem_cons,
        ← first, Prod.eta]
      -- the first part is not set again, since none of the others has its name
      have new : m = p → m.1 ∉ parts.map Prod.fst := fun e => e ▸ once.1
      tauto

/-- A node writes a part. -/
def WritesPart (d : Document) (n : Node) : Part → Prop
  | .version w => d.IsWord n w
  | .compiler s =>
      WritesSection d n CompilerSection.names d.IsText ({} : CompilerSection).toMembers s.toMembers
  | .registration s =>
      WritesSection d n RegistrationSection.names d.IsText ({} : RegistrationSection).toMembers s.toMembers
  | .features f => WritesSection d n Features.names d.IsBool ({} : Features).toMembers f.toMembers

theorem readPart_eq_ok_iff {d : Document} {n : Node} {name : String} {p : Part} (known : name ∈ names) :
    readPart d name n = .ok p ↔ name = p.name ∧ WritesPart d n p := by
  have texts (n : Node) (text : String) : d.readString n = .ok text ↔ d.IsText n text :=
    Document.readString_eq_ok_iff
  have booleans (n : Node) (b : Bool) : d.readBool n = .ok b ↔ d.IsBool n b := Document.readBool_eq_ok_iff
  have compiler (s : CompilerSection) := readSection_eq_ok_iff (d := d) (n := n) (a := s)
    "struct CompilerSection" texts CompilerSection.ofMembers_eq_iff
  have registration (s : RegistrationSection) := readSection_eq_ok_iff (d := d) (n := n) (a := s)
    "struct RegistrationSection" texts RegistrationSection.ofMembers_eq_iff
  have features (f : Features) := readSection_eq_ok_iff (d := d) (n := n) (a := f)
    "struct FeatureFlags" booleans features_ofNames_eq_iff
  constructor
  · intro read
    simp only [names, List.mem_cons, List.not_mem_nil, or_false] at known
    rcases known with rfl | rfl | rfl | rfl
    all_goals obtain ⟨found, there, rfl⟩ := map_eq_ok_iff.mp read
    · exact ⟨rfl, Document.readWord_eq_ok_iff.mp there⟩
    · exact ⟨rfl, (compiler _).mp ⟨found, there, rfl⟩⟩
    · exact ⟨rfl, (registration _).mp ⟨found, there, rfl⟩⟩
    · exact ⟨rfl, (features _).mp ⟨found, there, rfl⟩⟩
  · rintro ⟨rfl, written⟩
    cases p with
    | version w => exact map_eq_ok_iff.mpr ⟨w, Document.readWord_eq_ok_iff.mpr written, rfl⟩
    | compiler s =>
        obtain ⟨found, read, rfl⟩ := (compiler s).mpr written
        exact map_eq_ok_iff.mpr ⟨found, read, rfl⟩
    | registration s =>
        obtain ⟨found, read, rfl⟩ := (registration s).mpr written
        exact map_eq_ok_iff.mpr ⟨found, read, rfl⟩
    | features f =>
        obtain ⟨found, read, rfl⟩ := (features f).mpr written
        exact map_eq_ok_iff.mpr ⟨found, read, rfl⟩

/-! ### Configurations -/

/-- **A configuration in a document**: the document is a mapping that writes parts, a version among them, and nothing
in the text is left unread.  The other parts have defaults. -/
structure Written (d : Document) (c : Config) : Prop where
  sound : d.sound = true
  content : ∃ root members parts, d.root = some root ∧ d.resolve root = .mapping members ∧
    d.Writes names (fun name n p => name = p.name ∧ WritesPart d n p) members parts ∧
      "version" ∈ parts.map Prod.fst ∧ Filled parts ({ version := 0 } : Config).toParts c.toParts

/-- A document is read if its root is, with a version, and nothing in the text is left unread. -/
theorem ofDocument_eq_ok_iff_parts {d : Document} {c : Config} :
    ofDocument d = .ok c ↔ ∃ parts, d.readRoot "struct ProfToolConfig" names (readPart d) = .ok parts ∧
      "version" ∈ parts.map Prod.fst ∧ d.sound = true ∧
        parts.foldl (fun c p => c.withPart p.2) ({ version := 0 } : Config) = c := by
  unfold ofDocument
  rw [bind_eq_ok_iff]
  refine exists_congr fun parts => and_congr_right fun _ => ?_
  dsimp only
  cases version : member parts "version" with
  | none => exact ⟨fun h => (by cases h), fun h => absurd h.1 (member_eq_none_iff.mp version)⟩
  | some p =>
      have present : "version" ∈ parts.map Prod.fst := by
        by_contra absent
        rw [member_eq_none_iff.mpr absent] at version
        cases version
      cases sound : d.sound with
      | false => exact ⟨fun h => (by cases h), fun h => (by cases h.2.1)⟩
      | true => exact ⟨fun h => ⟨present, rfl, Except.ok.inj h⟩, fun h => congrArg Except.ok h.2.2⟩

/-- **Reading a document** succeeds with the configuration that it writes. -/
theorem ofDocument_eq_ok_iff {d : Document} {c : Config} : ofDocument d = .ok c ↔ Written d c := by
  have values : ∀ name ∈ names, ∀ n p, readPart d name n = .ok p ↔ name = p.name ∧ WritesPart d n p :=
    fun _ known _ _ => readPart_eq_ok_iff known
  have fills {members : List (Node × Node)} {parts : List (String × Part)}
      (writes : d.Writes names (fun name n p => name = p.name ∧ WritesPart d n p) members parts) :
      Filled parts ({ version := 0 } : Config).toParts
        (parts.foldl (fun c p => c.withPart p.2) ({ version := 0 } : Config)).toParts := by
    refine filled_foldl writes.once (fun p hp => ?_) _
    obtain ⟨-, -, -, named, -⟩ := writes.exists_member hp
    exact named
  rw [ofDocument_eq_ok_iff_parts]
  constructor
  · rintro ⟨parts, read, present, sound, rfl⟩
    cases there : d.root with
    | none =>
        rw [Document.readRoot, there] at read
        cases read
        cases present
    | some root =>
        rw [Document.readRoot, there] at read
        obtain ⟨members, mapping, writes⟩ := (Document.readMembers_eq_ok_iff _ values).mp read
        -- a root that is left empty writes no version
        cases mapping with
        | members mapping => exact ⟨sound, root, members, parts, there, mapping, writes, present, fills writes⟩
        | empty =>
            cases writes.each
            cases present
  · rintro ⟨sound, root, members, parts, there, mapping, writes, present, filled⟩
    refine ⟨parts, ?_, present, sound, ?_⟩
    · rw [Document.readRoot, there]
      exact (Document.readMembers_eq_ok_iff _ values).mpr ⟨members, .members mapping, writes⟩
    · refine toParts_injective (eq_of_subset rfl (show names.Nodup by decide) fun m hm => ?_)
      exact (filled m).mpr ((fills writes m).mp hm)

end Config

end Metering
