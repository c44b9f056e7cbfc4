import Metering.Binding.Json
import Metering.Proofs.Attempt
import Metering.Proofs.Json.Printed

/-!
# Proofs — Binding — Decoded

Binding sets through JSON.  Each reader takes back what its writer gives: the members of an object come in the order of
their names, whatever order they were written in, and each of them is read by its own reader.  The JSON of a set has no
numbers but positions, so that it is read back from its text as well (`exact_toJson`).  Hence a set is told by its JSON
and by the text of it (`decoded`).
-/

namespace Metering

/-! ### Readers take back what writers give -/

theorem RecordOptions.ofJson_toJson (o : RecordOptions) : ofJson o.toJson = .ok o := by
  have members : o.toJson.fields "struct RecordOptions" names.length =
      .ok [("exception_exits", .bool o.exceptionExits), ("exec_time_max", .bool o.execTimeMax),
        ("exec_time_min", .bool o.execTimeMin), ("lifetime_max", .bool o.lifetimeMax),
        ("lifetime_min", .bool o.lifetimeMin)] := by
    simp only [toJson, names, toList, List.map, List.zip, List.zipWith, Json.fields, Json.members, ByName.ofList,
      ByName.insert, List.foldl, String.reduceLT, String.reduceEq, if_true, if_false]
  rw [ofJson, members]
  rfl

theorem Target.ofJson_toJson (t : Target) : ofJson t.toJson = .ok t := by
  have members : t.toJson.fields "struct Target" names.length =
      .ok [("entity", .string t.entity), ("operation", .string t.operation)] := by
    simp only [toJson, Json.fields, Json.members, ByName.ofList, ByName.insert, List.foldl, String.reduceLT,
      String.reduceEq, if_false]
  rw [ofJson, members]
  rfl

theorem Phase.ofJson_toJson (p : Phase) : ofJson p.toJson = .ok p := by
  cases p <;> rfl

namespace Action

theorem Kind.ofTag_tag (k : Kind) : ofTag k.tag = .ok k := by
  cases k <;> rfl

theorem ofJson_toJson (a : Action) : ofJson a.toJson = .ok a := by
  cases a with
  | register call objectName options =>
      have members : (register call objectName options).toJson.members "internally tagged enum Action" =
          .ok [("call", .string call), ("kind", .string Kind.register.tag),
            ("object_name", .string objectName), ("options", options.toJson)] := by
        simp only [toJson, kind, Json.members, ByName.ofList, ByName.insert, List.foldl, String.reduceLT,
          String.reduceEq, if_true, if_false]
      have payload : [("call", .string call), ("kind", .string Kind.register.tag),
          ("object_name", .string objectName), ("options", options.toJson)].foldlM Payload.read {} =
            .ok ⟨call, objectName, options⟩ := by
        simp only [List.foldlM, Payload.read, RecordOptions.ofJson_toJson]
        rfl
      exact bind_eq_ok_iff.mpr ⟨_, members,
        bind_eq_ok_iff.mpr ⟨_, Kind.ofTag_tag .register, bind_eq_ok_iff.mpr ⟨_, payload, rfl⟩⟩⟩
  | _ => rfl

end Action

/-- A position is a number of 64 bits. -/
theorem Json.asWord_toNat (expected : String) (n : UInt64) :
    (Json.integer n.toNat).asWord expected = .ok n := by
  have fits : (0 : Int) ≤ n.toNat ∧ (n.toNat : Int) < (UInt64.size : Nat) :=
    ⟨Int.natCast_nonneg _, Int.ofNat_lt.mpr n.toNat_lt_size⟩
  simp only [asWord, fits, and_self, if_true, Int.toNat_natCast, UInt64.ofNat_toNat]

namespace Binding

theorem Draft.read_action (d : Draft) (a : Action) :
    d.read ("action", a.toJson) = .ok { d with action := a } := by
  rw [read, a.ofJson_toJson]
  rfl

theorem Draft.read_name (d : Draft) (name : String) :
    d.read ("name", .string name) = .ok { d with name := name } := rfl

theorem Draft.read_order (d : Draft) (n : UInt64) :
    d.read ("order", .integer n.toNat) = .ok { d with order := n } := by
  rw [read, Json.asWord_toNat]
  rfl

theorem Draft.read_phase (d : Draft) (p : Phase) :
    d.read ("phase", p.toJson) = .ok { d with phase := p } := by
  rw [read, p.ofJson_toJson]
  rfl

theorem Draft.read_target (d : Draft) (t : Target) :
    d.read ("target", t.toJson) = .ok { d with target := t } := by
  rw [read, t.ofJson_toJson]
  rfl

theorem ofJson_toJson (b : Binding) : ofJson b.toJson = .ok b := by
  have members : b.toJson.fields "struct Binding" 5 =
      .ok [("action", b.action.toJson), ("name", .string b.name), ("order", .integer b.order.toNat),
        ("phase", b.phase.toJson), ("target", b.target.toJson)] := by
    simp only [toJson, Json.fields, Json.members, ByName.ofList, ByName.insert, List.foldl, String.reduceLT,
      String.reduceEq, if_true, if_false]
  have draft : [("action", b.action.toJson), ("name", .string b.name), ("order", .integer b.order.toNat),
      ("phase", b.phase.toJson), ("target", b.target.toJson)].foldlM Draft.read {} =
        .ok ⟨b.name, b.target, b.phase, b.action, b.order⟩ := by
    simp only [List.foldlM_cons, List.foldlM_nil, Draft.read_action, Draft.read_name, Draft.read_order,
      Draft.read_phase, Draft.read_target, bind_ok]
    rfl
  exact bind_eq_ok_iff.mpr ⟨_, members, bind_eq_ok_iff.mpr ⟨_, draft, rfl⟩⟩

end Binding

namespace BindingSet

theorem ofJson_toJson (set : BindingSet) : ofJson set.toJson = .ok set := by
  have members : set.toJson.fields "struct BindingSet" 2 =
      .ok [("bindings", .array (set.bindings.map Binding.toJson)), ("helper", .string set.helper)] := by
    simp only [toJson, Json.fields, Json.members, ByName.ofList, ByName.insert, List.foldl, String.reduceLT,
      String.reduceEq, if_true, if_false]
  have bindings : (set.bindings.map Binding.toJson).mapM Binding.ofJson = .ok set.bindings :=
    mapM_map Binding.ofJson_toJson set.bindings
  have list : Draft.read {} ("bindings", .array (set.bindings.map Binding.toJson)) =
      .ok { bindings := set.bindings } :=
    bind_eq_ok_iff.mpr ⟨_, rfl, bind_eq_ok_iff.mpr ⟨_, bindings, rfl⟩⟩
  exact bind_eq_ok_iff.mpr ⟨_, members,
    bind_eq_ok_iff.mpr ⟨_, bind_eq_ok_iff.mpr ⟨_, list, rfl⟩, rfl⟩⟩

end BindingSet

/-! ### The text of a set -/

open Json (Exact)

theorem RecordOptions.exact_toJson (o : RecordOptions) : Exact o.toJson := by
  refine .object fun m hm => ?_
  obtain ⟨b, -, value⟩ := List.mem_map.mp (List.of_mem_zip hm).2
  exact value ▸ .bool b

theorem Target.exact_toJson (t : Target) : Exact t.toJson := by
  refine .object fun m hm => ?_
  simp only [List.mem_cons, List.not_mem_nil, or_false] at hm
  rcases hm with rfl | rfl <;> exact .string _

theorem Action.exact_toJson (a : Action) : Exact a.toJson := by
  cases a with
  | register call objectName options =>
      refine .object fun m hm => ?_
      simp only [List.mem_cons, List.not_mem_nil, or_false] at hm
      rcases hm with rfl | rfl | rfl | rfl
      · exact .string _
      · exact .string call
      · exact .string objectName
      · exact options.exact_toJson
  | _ =>
      refine .object fun m hm => ?_
      rw [List.mem_singleton.mp hm]
      exact .string _

theorem Binding.exact_toJson (b : Binding) : Exact b.toJson := by
  refine .object fun m hm => ?_
  simp only [List.mem_cons, List.not_mem_nil, or_false] at hm
  rcases hm with rfl | rfl | rfl | rfl | rfl
  · exact .string b.name
  · exact b.target.exact_toJson
  · exact .string b.phase.tag
  · exact b.action.exact_toJson
  · exact .integer (Int.le_trans (by decide) (Int.natCast_nonneg _)) (Int.ofNat_lt.mpr b.order.toNat_lt_size)

namespace BindingSet

theorem exact_toJson (set : BindingSet) : Exact set.toJson := by
  refine .object fun m hm => ?_
  simp only [List.mem_cons, List.not_mem_nil, or_false] at hm
  rcases hm with rfl | rfl
  · exact .string set.helper
  · refine .array fun j hj => ?_
    obtain ⟨b, -, written⟩ := List.mem_map.mp hj
    exact written ▸ b.exact_toJson

theorem ofText?_pretty (set : BindingSet) : Json.ofText? set.toJson.pretty = some set.toJson :=
  Json.ofText?_pretty set.exact_toJson

theorem toJson_injective {set other : BindingSet} (h : set.toJson = other.toJson) : set = other := by
  have same := set.ofJson_toJson
  rw [h, other.ofJson_toJson] at same
  exact (Except.ok.inj same).symm

theorem pretty_injective {set other : BindingSet} (h : set.toJson.pretty = other.toJson.pretty) :
    set = other := by
  have same := set.ofText?_pretty
  rw [h, other.ofText?_pretty] at same
  exact toJson_injective (Option.some.inj same).symm

/-- **Encoding and decoding.**  A set is given back by its JSON, and this by its text.  So sets that differ have JSON
that differs, and texts that differ. -/
theorem decoded (set : BindingSet) :
    ofJson set.toJson = .ok set ∧ Json.ofText? set.toJson.pretty = some set.toJson ∧
      ∀ other : BindingSet, other ≠ set →
        other.toJson ≠ set.toJson ∧ other.toJson.pretty ≠ set.toJson.pretty :=
  ⟨set.ofJson_toJson, set.ofText?_pretty, fun _ differ =>
    ⟨fun same => differ (toJson_injective same), fun same => differ (pretty_injective same)⟩⟩

/-- In the object name of a registration, a control character is told from the letters of its escape. -/
theorem decoded_of_escape :
    let registering (objectName : String) : BindingSet :=
      ⟨"H", [⟨"Register statistics", ⟨"A", "main"⟩, .entry, .register "registerMBean" objectName {}, 0⟩]⟩
    registering "p:t=\x07" ≠ registering "p:t=\\u0007" ∧
      ofJson (registering "p:t=\x07").toJson = .ok (registering "p:t=\x07") ∧
      (registering "p:t=\x07").toJson ≠ (registering "p:t=\\u0007").toJson ∧
      (registering "p:t=\x07").toJson.pretty ≠ (registering "p:t=\\u0007").toJson.pretty := by
  intro registering
  have differ : registering "p:t=\x07" ≠ registering "p:t=\\u0007" := by decide
  obtain ⟨readBack, -, -⟩ := decoded (registering "p:t=\x07")
  obtain ⟨-, -, told⟩ := decoded (registering "p:t=\\u0007")
  exact ⟨differ, readBack, told _ differ⟩

end BindingSet

end Metering
