import Grimoire.Proofs.Json.Encodable
import Grimoire.Proofs.Spell.Acceptance
import Grimoire.Proofs.Text.Lines

/-!
# Spells that can be stored

The rules see to it that the identifier, the name, the description, the address and the code of a
spell can be encoded, but look into no text in its schemas, its headers or its body. The wire form
mends the keys of the schemas and the names of the headers. So a checked spell without integers of
too many digits has a wire form that can be written exactly when it has a wire form at all and the
texts that this keeps as they are can be encoded (`Spell.isStorable_iff`).
-/

namespace Grimoire

/-! ## Texts that rules look into -/

theorem Spell.isEncodable_of_isUuid {t : Text} (uuid : isUuid t = true) : t.isEncodable = true := by
  simp only [isUuid, Bool.and_eq_true, List.all_eq_true] at uuid
  rw [Text.isEncodable, List.all_eq_true]
  have pieces : ∀ piece ∈ Text.splitOn '-' t, ∀ c ∈ piece, c.isScalar = true := by
    intro piece member c inside
    have digit := uuid.2 piece member c inside
    cases c with
    | scalar c => rfl
    | surrogate s => exact absurd digit (by simp [isHexDigit, CodePoint.satisfies])
  exact Text.forall_mem_of_splitOn (p := fun c => c.isScalar = true) rfl pieces

theorem Url.isEncodable_of_isAbsolute {t : Text} (absolute : isAbsolute t = true) :
    t.isEncodable = true := by
  rw [← Utf8.isSome_scalars?]
  rw [isAbsolute] at absolute
  cases scalars : t.scalars? with
  | none => exact absurd absolute (by simp [scalars])
  | some cs => rfl

/-- The texts of an action that no rule looks into. -/
def Action.looseTexts : Action → List Text
  | .http r => r.headerEntries.flatMap (fun header => [header.1, header.2]) ++ r.body.toList
  | .script _ => []

/-- The texts of an action that no rule looks into and that are the same on the wire. -/
def Action.keptTexts : Action → List Text
  | .http r => Entries.values (Entries.mapKeys Text.mend r.headerEntries) ++ r.body.toList
  | .script _ => []

/-- The texts of an object with keys that can be encoded can be encoded if those of its values can. -/
theorem Json.isEncodable_texts_obj {ms : Members}
    (plain : ∀ key ∈ Entries.keys ms, key.isEncodable = true) :
    (∀ t ∈ (Json.obj ms).texts, t.isEncodable = true) ↔
      ∀ v ∈ Entries.values ms, ∀ t ∈ v.texts, t.isEncodable = true := by
  rw [Json.texts, Json.forall_mem_textsMembers, Entries.values, List.forall_mem_map]
  exact forall₂_congr fun m member =>
    and_iff_right (plain m.1 (List.mem_map_of_mem member))

namespace Spell

open Checked

/-- The texts of a spell that no rule looks into. -/
def looseTexts (s : Spell) : List Text :=
  (Json.obj s.inputSchema).texts ++ (Json.obj s.outputSchema).texts ++ s.action.looseTexts

/-- The texts of a spell that no rule looks into and that are the same on the wire. -/
def keptTexts (s : Spell) : List Text :=
  (Entries.values (wireSchema s.inputSchema)).flatMap Json.texts
    ++ (Entries.values (wireSchema s.outputSchema)).flatMap Json.texts ++ s.action.keptTexts

/-- Whether a spell has a wire form, and the texts that the wire form keeps can be encoded. -/
structure IsStorable (s : Spell) : Prop where
  wirable : s.isWirable = true
  encodable : ∀ t ∈ s.keptTexts, t.isEncodable = true

theorem isEncodable_keys_wireSchema (schema : Members) :
    ∀ key ∈ Entries.keys (wireSchema schema), key.isEncodable = true := by
  intro key member
  obtain ⟨k, -, rfl⟩ := Entries.mem_keys_mapKeys member
  exact Text.isEncodable_mend k

theorem isEncodable_wireSchema (schema : Members) :
    (∀ t ∈ (Json.obj (wireSchema schema)).texts, t.isEncodable = true) ↔
      ∀ t ∈ (Entries.values (wireSchema schema)).flatMap Json.texts, t.isEncodable = true := by
  rw [Json.isEncodable_texts_obj (isEncodable_keys_wireSchema schema), List.forall_mem_flatMap]

theorem isEncodable_wireHeaders (headers : Entries Text) :
    (∀ t ∈ (wireHeaders headers).texts, t.isEncodable = true) ↔
      ∀ t ∈ Entries.values (Entries.mapKeys Text.mend headers), t.isEncodable = true := by
  rw [wireHeaders_eq, Json.isEncodable_texts_obj, Entries.values, Entries.values, List.map_map,
    List.forall_mem_map, List.forall_mem_map]
  · simp [Json.texts]
  · simp only [Entries.keys, List.map_map, List.forall_mem_map, Function.comp_apply]
    intro e member
    obtain ⟨k, -, same⟩ := Entries.mem_mapKeys member
    rw [same]
    exact Text.isEncodable_mend k

theorem forall_mem_wireMember {q : Text × Json → Prop} {key : Text} {value : Option Json} :
    (∀ m ∈ wireMember key value, q m) ↔ ∀ v ∈ value, q (key, v) := by
  cases value <;> simp [wireMember]

/-- The texts of the wire form of a request can be encoded if its address and the kept ones can. -/
theorem isEncodable_wireRequest {r : HttpRequest} (absolute : Url.isAbsolute r.url = true) :
    (∀ t ∈ (Json.obj (wireRequest r)).texts, t.isEncodable = true) ↔
      ∀ t ∈ (Action.http r).keptTexts, t.isEncodable = true := by
  obtain ⟨url, method, headers, body⟩ := r
  have first : ∀ v ∈ some (Json.str url), Text.isEncodable "url" = true ∧
      ∀ t ∈ v.texts, t.isEncodable = true := by
    rintro _ ⟨⟩
    exact ⟨by decide, List.forall_mem_singleton.mpr (Url.isEncodable_of_isAbsolute absolute)⟩
  have second : ∀ v ∈ some (Json.str method.name), Text.isEncodable "method" = true ∧
      ∀ t ∈ v.texts, t.isEncodable = true := by
    rintro _ ⟨⟩
    exact ⟨by decide, List.forall_mem_singleton.mpr (by cases method <;> decide)⟩
  have third : (∀ v ∈ headers.map wireHeaders, Text.isEncodable "headers" = true ∧
      ∀ t ∈ v.texts, t.isEncodable = true) ↔
        ∀ t ∈ Entries.values (Entries.mapKeys Text.mend (headers.getD [])),
          t.isEncodable = true := by
    have key : Text.isEncodable "headers" = true := by decide
    cases headers with
    | none => simp [Entries.mapKeys, Entries.putAll, Entries.values]
    | some headers =>
      rw [Option.getD_some, ← isEncodable_wireHeaders]
      simp [key]
  have fourth : (∀ v ∈ body.map Json.str, Text.isEncodable "body" = true ∧
      ∀ t ∈ v.texts, t.isEncodable = true) ↔ ∀ t ∈ body.toList, t.isEncodable = true := by
    have key : Text.isEncodable "body" = true := by decide
    cases body <;> simp [key, Json.texts]
  rw [Json.texts, Json.forall_mem_textsMembers, wireRequest, List.forall_mem_append,
    List.forall_mem_append, List.forall_mem_append, forall_mem_wireMember, forall_mem_wireMember,
    forall_mem_wireMember, forall_mem_wireMember, Action.keptTexts, List.forall_mem_append]
  rw [third, fourth]
  exact and_congr_left fun _ => and_iff_right ⟨first, second⟩

/-- The texts of the wire form of a valid action can be encoded if the kept ones can. -/
theorem isEncodable_wireAction {a : Action} (valid : ActionIsValid a) :
    (∀ t ∈ (wireAction a).texts, t.isEncodable = true) ↔
      ∀ t ∈ a.keptTexts, t.isEncodable = true := by
  cases a with
  | http r =>
    have kind : Text.isEncodable "type" = true ∧
        ∀ t ∈ (Json.str "http").texts, t.isEncodable = true := by decide
    have key : Text.isEncodable "config" = true := by decide
    rw [wireAction, Json.texts, Json.forall_mem_textsMembers, List.forall_mem_cons,
      List.forall_mem_singleton, isEncodable_wireRequest valid]
    exact (and_iff_right kind).trans (and_iff_right key)
  | script code =>
    have encodable : code.isEncodable = true := (lengthFault?_eq_none_iff.mp valid).encodable
    have texts : (wireAction (.script code)).texts
        = (["type", "script", "config", "runtime", "node", "code"] : List Text) ++ [code] := rfl
    rw [texts, List.forall_mem_append, List.forall_mem_singleton]
    exact iff_of_true ⟨by decide, encodable⟩ (by simp [Action.keptTexts])

/-- The wire form of a valid spell can be encoded exactly when its kept texts can. -/
theorem isEncodable_wire {s : Spell} (valid : s.IsValid) :
    (∀ t ∈ s.wire.texts, t.isEncodable = true) ↔ ∀ t ∈ s.keptTexts, t.isEncodable = true := by
  have id : s.id.isEncodable = true := isEncodable_of_isUuid valid.id
  have name : s.name.isEncodable = true := (nameFault?_eq_none_iff.mp valid.name).1.encodable
  have description : s.description.isEncodable = true :=
    (lengthFault?_eq_none_iff.mp valid.description).encodable
  have texts : s.wire.texts
      = (["id", s.id, "name", s.name, "description", s.description, "inputSchema"] : List Text)
        ++ ((Json.obj (wireSchema s.inputSchema)).texts ++ ((["outputSchema"] : List Text)
        ++ ((Json.obj (wireSchema s.outputSchema)).texts ++ ((["action"] : List Text)
        ++ ((wireAction s.action).texts ++ []))))) := rfl
  have front : ∀ t ∈ (["id", s.id, "name", s.name, "description", s.description,
      "inputSchema"] : List Text), t.isEncodable = true := by
    simp only [List.forall_mem_cons]
    exact ⟨by decide, id, by decide, name, by decide, description, by decide, by simp⟩
  have second : ∀ t ∈ (["outputSchema"] : List Text), t.isEncodable = true := by decide
  have third : ∀ t ∈ (["action"] : List Text), t.isEncodable = true := by decide
  rw [texts, keptTexts]
  simp only [List.append_nil, List.forall_mem_append, isEncodable_wireSchema,
    isEncodable_wireAction valid.action]
  exact ⟨fun all => ⟨⟨all.2.1, all.2.2.2.1⟩, all.2.2.2.2.2⟩,
    fun all => ⟨front, all.1.1, second, all.1.2, third, all.2⟩⟩

theorem isWritable_wireHeaders (headers : Entries Text) :
    (wireHeaders headers).isWritable = true := by
  rw [wireHeaders_eq, Json.isWritable_obj, List.forall_mem_map]
  exact fun _ _ => rfl

theorem isWritable_wireRequest (r : HttpRequest) :
    (Json.obj (wireRequest r)).isWritable = true := by
  rw [Json.isWritable_obj, wireRequest, List.forall_mem_append, List.forall_mem_append,
    List.forall_mem_append, forall_mem_wireMember, forall_mem_wireMember, forall_mem_wireMember,
    forall_mem_wireMember]
  refine ⟨⟨⟨?_, ?_⟩, ?_⟩, ?_⟩
  · rintro _ ⟨⟩
    rfl
  · rintro _ ⟨⟩
    rfl
  · intro v member
    obtain ⟨headers, -, rfl⟩ := Option.map_eq_some_iff.mp member
    exact isWritable_wireHeaders headers
  · intro v member
    obtain ⟨body, -, rfl⟩ := Option.map_eq_some_iff.mp member
    rfl

theorem isWritable_wireAction (a : Action) : (wireAction a).isWritable = true := by
  cases a with
  | http r =>
    rw [wireAction, Json.isWritable_obj, List.forall_mem_cons, List.forall_mem_singleton]
    exact ⟨rfl, isWritable_wireRequest r⟩
  | script code => rfl

/-- The integers in the schemas of a spell are all that its wire form has. -/
theorem isWritable_wire {s : Spell} (writable : s.isWritable = true) :
    s.wire.isWritable = true := by
  rw [isWritable, Bool.and_eq_true] at writable
  have input := isWritable_wireSchema writable.1
  have output := isWritable_wireSchema writable.2
  rw [wire, Json.isWritable_obj]
  simp only [List.forall_mem_cons, input, output, isWritable_wireAction, true_and]
  exact ⟨rfl, rfl, rfl, by simp⟩

/-- The schemas of a spell are parts of the candidate. -/
theorem isWritable_of_check {s : Spell} {candidate : Json} (writable : candidate.isWritable = true)
    (h : check candidate = .valid s) : s.isWritable = true := by
  obtain ⟨members, _, _, rfl, input, output⟩ := schemas_of_check h
  rw [isWritable, Bool.and_eq_true]
  exact ⟨Json.isWritable_member writable (Entries.mem_of_find? input),
    Json.isWritable_member writable (Entries.mem_of_find? output)⟩

/-- A valid spell without integers of too many digits can be stored exactly when it has a wire form, and
this can be written. -/
theorem isStorable_iff {s : Spell} (valid : s.IsValid) (writable : s.isWritable = true) :
    s.IsStorable ↔ s.isWirable = true ∧ s.wire.isWritable = true ∧
      (Json.pretty s.wire).isEncodable = true := by
  rw [Json.isEncodable_pretty, isEncodable_wire valid]
  exact ⟨fun storable => ⟨storable.wirable, isWritable_wire writable, storable.encodable⟩,
    fun fits => ⟨fits.1, fits.2.2⟩⟩

end Spell

end Grimoire
