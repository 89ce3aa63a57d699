import Grimoire.Failure
import Grimoire.Spell.Basic

/-!
# The wire form of a spell

The wire form is the JSON object in which a spell is stored and shown. Headers and body are left out
where they are absent, and numbers that are not finite become null. The keys of a schema and the names of
headers are mended, so that they can be written out; a name further down in a schema that cannot be
written out, or a schema deeper than `wireDepth`, leaves the spell without a wire form.

Main statement: `Spell.wire?_eq_ok_iff` (a spell has a wire form exactly when its schemas are not too
deep and the names further down in them can be written out).
-/

namespace Grimoire

namespace Json

mutual

/-- What keeps a value from the wire, where `room` levels may still open. A name is looked at before its
value. -/
def stop? : (room : Nat) → Json → Option Failure
  | 0, _ => some .tooDeep
  | room + 1, arr items => stopItems? room items
  | room + 1, obj members => stopMembers? room members
  | _ + 1, _ => none

/-- What keeps items from the wire. -/
def stopItems? (room : Nat) : List Json → Option Failure
  | [] => none
  | v :: rest => (stop? room v).or (stopItems? room rest)

/-- What keeps members from the wire. -/
def stopMembers? (room : Nat) : List (Text × Json) → Option Failure
  | [] => none
  | (k, v) :: rest =>
    if k.isEncodable then (stop? room v).or (stopMembers? room rest)
    else some (.unencodable (Utf8.encodeError k))

end

end Json

namespace Spell

/-- The greatest number of levels of a schema on the wire. -/
def wireDepth : Nat := 256

/-- The member for a value that may be absent. -/
def wireMember (key : Text) (value : Option Json) : Members := (value.map fun v => (key, v)).toList

/-- The wire form of a schema. -/
def wireSchema (schema : Members) : Members :=
  Entries.mapKeys Text.mend (Json.finiteMembers schema)

/-- The wire form of headers. -/
def wireHeaders (headers : Entries Text) : Json :=
  .obj ((Entries.mapKeys Text.mend headers).map fun (k, v) => (k, .str v))

/-- The wire form of a request. -/
def wireRequest (r : HttpRequest) : Members :=
  wireMember "url" (Json.str r.url) ++ wireMember "method" (Json.str r.method.name)
    ++ wireMember "headers" (r.headers.map wireHeaders) ++ wireMember "body" (r.body.map Json.str)

/-- The wire form of an action. -/
def wireAction : Action → Json
  | .http r => .obj [("type", .str "http"), ("config", .obj (wireRequest r))]
  | .script code => .obj [
      ("type", .str "script"),
      ("config", .obj [("runtime", .str "node"), ("code", .str code)])]

/-- The wire form of a spell that has one. -/
def wire (s : Spell) : Json := .obj [
  ("id", .str s.id),
  ("name", .str s.name),
  ("description", .str s.description),
  ("inputSchema", .obj (wireSchema s.inputSchema)),
  ("outputSchema", .obj (wireSchema s.outputSchema)),
  ("action", wireAction s.action)]

/-- Whether the schemas of a spell are shallow enough for the wire. -/
def isShallow (s : Spell) : Bool :=
  (Json.obj s.inputSchema).levels ≤ wireDepth && (Json.obj s.outputSchema).levels ≤ wireDepth

/-- The names of members in the schemas of a spell, without those of the schemas themselves. -/
def innerNames (s : Spell) : List Text :=
  Json.namesItems s.inputSchema.values ++ Json.namesItems s.outputSchema.values

/-- Whether a spell has a wire form. -/
def isWirable (s : Spell) : Bool := s.isShallow && s.innerNames.all Text.isEncodable

/-- Whether the integers in the schemas of a spell can be written. -/
def isWritable (s : Spell) : Bool :=
  (Json.obj s.inputSchema).isWritable && (Json.obj s.outputSchema).isWritable

/-- What keeps a schema from the wire. Its own keys are mended and do not. -/
def schemaStop? (schema : Members) : Option Failure := Json.stopItems? (wireDepth - 1) schema.values

/-- The wire form of a spell, or what keeps it from the wire. -/
def wire? (s : Spell) : Except Failure Json :=
  match (schemaStop? s.inputSchema).or (schemaStop? s.outputSchema) with
  | some failure => .error failure
  | none => .ok s.wire

end Spell

namespace Json

mutual

theorem stop?_eq_none_iff (room : Nat) (v : Json) :
    stop? room v = none ↔ v.levels ≤ room ∧ ∀ t ∈ v.names, t.isEncodable = true := by
  cases room with
  | zero => cases v <;> simp [stop?, levels]
  | succ room =>
    cases v with
    | arr items => simp [stop?, levels, names, stopItems?_eq_none_iff room items]
    | obj members => simp [stop?, levels, names, stopMembers?_eq_none_iff room members]
    | _ => simp [stop?, levels, names]

theorem stopItems?_eq_none_iff (room : Nat) (items : List Json) :
    stopItems? room items = none ↔
      levelsItems items ≤ room ∧ ∀ t ∈ namesItems items, t.isEncodable = true := by
  cases items with
  | nil => simp [stopItems?, levelsItems, namesItems]
  | cons v rest =>
    rw [stopItems?, Option.or_eq_none_iff, stop?_eq_none_iff room v, stopItems?_eq_none_iff room rest,
      levelsItems, namesItems, Nat.max_le, List.forall_mem_append]
    exact and_and_and_comm

theorem stopMembers?_eq_none_iff (room : Nat) (members : List (Text × Json)) :
    stopMembers? room members = none ↔
      levelsMembers members ≤ room ∧ ∀ t ∈ namesMembers members, t.isEncodable = true := by
  cases members with
  | nil => simp [stopMembers?, levelsMembers, namesMembers]
  | cons m rest =>
    obtain ⟨k, v⟩ := m
    rw [stopMembers?, levelsMembers, namesMembers, Nat.max_le, List.forall_mem_cons,
      List.forall_mem_append]
    split
    · rename_i encodable
      rw [Option.or_eq_none_iff, stop?_eq_none_iff room v, stopMembers?_eq_none_iff room rest]
      simp only [encodable, true_and]
      exact and_and_and_comm
    · rename_i encodable
      exact iff_of_false (by simp) fun all => encodable all.2.1

end

theorem levelsMembers_eq (members : Members) :
    levelsMembers members = levelsItems members.values := by
  induction members with
  | nil => rfl
  | cons m rest ih =>
    rw [levelsMembers, ih]
    rfl

end Json

namespace Spell

theorem schemaStop?_eq_none_iff (schema : Members) :
    schemaStop? schema = none ↔ (Json.obj schema).levels ≤ wireDepth ∧
      ∀ t ∈ Json.namesItems schema.values, t.isEncodable = true := by
  rw [schemaStop?, Json.stopItems?_eq_none_iff, Json.levels, Json.levelsMembers_eq]
  exact and_congr_left fun _ => by
    unfold wireDepth
    omega

theorem wire?_eq_ok_iff {s : Spell} {v : Json} :
    s.wire? = .ok v ↔ s.isWirable = true ∧ v = s.wire := by
  have stops : (schemaStop? s.inputSchema).or (schemaStop? s.outputSchema) = none ↔
      s.isWirable = true := by
    rw [Option.or_eq_none_iff, schemaStop?_eq_none_iff, schemaStop?_eq_none_iff, isWirable, isShallow,
      innerNames, Bool.and_eq_true, Bool.and_eq_true, decide_eq_true_eq, decide_eq_true_eq,
      List.all_eq_true, List.forall_mem_append]
    exact and_and_and_comm
  rw [wire?, ← stops]
  split
  · rename_i failure stop
    simp [stop]
  · rename_i stop
    simp [stop, eq_comm]

end Spell

end Grimoire
