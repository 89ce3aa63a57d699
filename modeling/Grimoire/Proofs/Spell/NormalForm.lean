import Grimoire.Proofs.Spell.Acceptance

/-!
# The wire form is a normal form

There are many ways to describe a spell: schemas go by either of two keys, headers and body may be
null or left out, and other keys do not matter. The wire form of the spell is one of them, whichever
way the spell came in: it is accepted and written as itself again (`Spell.wire_isNormal`). What is
read back from it is the normal form of the spell, with null for the numbers in its schemas that are
not finite and with mended keys, so it is the spell itself just if there is nothing to mend. A key
that cannot be encoded comes back as another one (`Spell.wire_isNormal_mended`).
-/

namespace Grimoire

namespace Json

theorem isBounded_of_finite_eq_self {v : Json} (same : v.finite = v) : v.isBounded = true := by
  cases v with
  | float x =>
    rcases finite_float x with ⟨-, bounded⟩ | other
    · exact bounded
    · exact absurd (other.symm.trans same) (by simp)
  | _ => rfl

/-- A value stays the same just if its numbers are finite. -/
theorem finite_eq_self_iff (v : Json) : v.finite = v ↔ v.isFinite = true := by
  refine ⟨fun same => ?_, finite_eq_self v⟩
  have leaves : v.leaves.map finite = v.leaves.map id := by
    rw [← leaves_finite, same, List.map_id]
  rw [isFinite, List.all_eq_true]
  intro leaf member
  exact isBounded_of_finite_eq_self (List.map_inj_left.mp leaves leaf member)

end Json

namespace Spell

variable {s : Spell}

/-- A schema that is as on the wire has finite numbers and keys that can be encoded. -/
theorem isFinite_of_wireSchema_eq_self {schema : Members} (same : wireSchema schema = schema) :
    (Json.obj schema).isFinite = true ∧
      ∀ key ∈ Entries.keys schema, key.isEncodable = true := by
  constructor
  · have values : ∀ m ∈ schema, m.2.finite = m.2 := by
      intro m member
      obtain ⟨n, -, wired⟩ := mem_wireSchema (same.symm ▸ member)
      rw [wired, Json.finite_finite]
    rw [← Json.finite_eq_self_iff, Json.finite, Json.finiteMembers_eq]
    refine congrArg Json.obj ((List.map_congr_left fun m member => ?_).trans (List.map_id _))
    exact Prod.ext rfl (values m member)
  · intro key member
    rw [← same] at member
    obtain ⟨k, -, rfl⟩ := Entries.mem_keys_mapKeys member
    exact Text.isEncodable_mend k

theorem isEncodable_of_action_normal_eq_self {a : Action} (same : a.normal = a) :
    ∀ key ∈ headerKeys a, key.isEncodable = true := by
  cases a with
  | http r =>
    obtain ⟨url, method, headers, body⟩ := r
    cases headers with
    | none => exact fun _ none => absurd none List.not_mem_nil
    | some headers =>
      have mended : Entries.mapKeys Text.mend headers = headers := by
        simpa [Action.normal, HttpRequest.normal] using same
      intro key member
      have member : key ∈ Entries.keys headers := member
      rw [← mended] at member
      obtain ⟨k, -, rfl⟩ := Entries.mem_keys_mapKeys member
      exact Text.isEncodable_mend k
  | script code => exact fun _ none => absurd none List.not_mem_nil

/-- A spell is its own normal form exactly when it loses nothing on the wire. -/
theorem normal_eq_self_iff (proper : s.IsProper) : s.normal = s ↔ s.isNormal = true := by
  refine ⟨fun same => ?_, normal_eq_self proper⟩
  obtain ⟨input, inputNames⟩ :=
    isFinite_of_wireSchema_eq_self (congrArg Spell.inputSchema same)
  obtain ⟨output, outputNames⟩ :=
    isFinite_of_wireSchema_eq_self (congrArg Spell.outputSchema same)
  rw [isNormal, isFinite, Bool.and_eq_true, Bool.and_eq_true, List.all_eq_true, outerNames,
    List.forall_mem_append, List.forall_mem_append]
  exact ⟨⟨input, output⟩, ⟨inputNames, outputNames⟩,
    isEncodable_of_action_normal_eq_self (congrArg Spell.action same)⟩

theorem actionIsValid_of_isDescribed {a : Action} {members : Members}
    (described : a.IsDescribed members) : ActionIsValid a := by
  obtain ⟨-, ⟨config, -, configured⟩, -⟩ := described
  cases a with
  | http r => exact configured.absolute
  | script code => exact lengthFault?_eq_none_iff.mpr configured.within

/-- What describes a spell keeps to the rules. -/
theorem IsDescribed.isValid {members : Members} (described : s.IsDescribed members) :
    s.IsValid := by
  obtain ⟨action, -, action_described⟩ := described.action
  exact ⟨described.uuid,
    nameFault?_eq_none_iff.mpr ⟨described.nameWithin, described.nameCodePoints⟩,
    lengthFault?_eq_none_iff.mpr described.descriptionWithin,
    actionIsValid_of_isDescribed action_described⟩

theorem isValid_of_check {candidate : Json} (valid : check candidate = .valid s) : s.IsValid := by
  cases candidate with
  | obj members => exact (check_eq_valid_iff.mp valid).isValid
  | _ => exact absurd valid (by simp [check, Checked.fail])

/-- The wire form of an accepted spell is accepted, and the spell that it makes has the same wire
form. That spell is the one before exactly when all numbers in the schemas of the one before are
finite and the keys of its schemas and the names of its headers can be encoded. -/
theorem wire_isNormal {candidate v : Json} (proper : candidate.isProper = true)
    (valid : check candidate = .valid s) (wired : s.wire? = .ok v) :
    check v = .valid s.normal ∧ s.normal.wire? = .ok v ∧ (s.normal = s ↔ s.isNormal = true) := by
  refine ⟨?_, wire?_normal wired, normal_eq_self_iff (IsChecked.rules ⟨_, proper, valid⟩).2⟩
  obtain ⟨-, rfl⟩ := wire?_eq_ok_iff.mp wired
  exact check_wire (isValid_of_check valid)

/-- A spell whose input schema holds a number that is not finite, and a null of its own. -/
def loose : Spell where
  id := "7d444840-9dc0-11d1-b245-5ffdce74fad2"
  name := "say-hello"
  description := List.replicate 100 (.scalar 'a')
  inputSchema := [("b", .float .nan), ("a", .null)]
  outputSchema := []
  action := .http ⟨"https://a.test/", .get, none, none⟩

/-- A spell under the other keys, with a key that does not matter and with null for headers. -/
def otherMembers (s : Spell) : Members := [("input_schema", .obj s.inputSchema), ("note", .null),
  ("id", .str s.id), ("name", .str s.name), ("description", .str s.description),
  ("output_schema", .obj s.outputSchema),
  ("action", .obj [("type", .str "http"), ("config", .obj [("url", .str "https://a.test/"),
    ("headers", .null), ("method", .str "GET")])])]

/-- The loose spell under the other keys. -/
def looseMembers : Members := otherMembers loose

theorem isDescribed_loose (schema : Members) :
    IsDescribed { loose with inputSchema := schema }
      (otherMembers { loose with inputSchema := schema }) where
  id := rfl
  uuid := show isUuid loose.id = true by decide +kernel
  name := rfl
  nameWithin := lengthFault?_eq_none_iff.mp
    (show lengthFault? minNameLength (some maxNameLength) loose.name = none by decide +kernel)
  nameCodePoints := show ∀ c ∈ loose.name, isNameCodePoint c = true by decide +kernel
  description := rfl
  descriptionWithin := lengthFault?_eq_none_iff.mp (show lengthFault? minDescriptionLength
    (some maxDescriptionLength) loose.description = none by decide +kernel)
  input := rfl
  output := rfl
  action := ⟨_, rfl, rfl, ⟨_, rfl, rfl, by decide +kernel, rfl, .inr rfl, .inl rfl, by decide⟩,
    by decide⟩

theorem wire_isNormal_loose :
    check (.obj looseMembers) = .valid loose ∧ loose.wire? = .ok loose.wire ∧
      check loose.wire = .valid loose.normal ∧ loose.normal.wire? = .ok loose.wire ∧
        loose.normal ≠ loose := by
  have valid : check (.obj looseMembers) = .valid loose :=
    check_eq_valid_iff.mpr (isDescribed_loose loose.inputSchema)
  have wired : loose.wire? = .ok loose.wire := by rfl
  obtain ⟨accepted, again, same⟩ := wire_isNormal (by decide +kernel) valid wired
  exact ⟨valid, wired, accepted, again, fun h => absurd (same.mp h) (by decide +kernel)⟩

/-- A spell with a key in its input schema that cannot be encoded, and with finite numbers only. -/
def surrogateKeyed : Spell := { loose with inputSchema := [(Text.loneSurrogate, .int 1)] }

/-- On the wire the key is another one, so that the spell that is made is not the one before. -/
theorem wire_isNormal_mended :
    check (.obj (otherMembers surrogateKeyed)) = .valid surrogateKeyed ∧
      surrogateKeyed.isFinite = true ∧ surrogateKeyed.wire? = .ok surrogateKeyed.wire ∧
        ∃ s, check surrogateKeyed.wire = .valid s ∧
          s.inputSchema = [(("\uFFFD\uFFFD\uFFFD" : Text), Json.int 1)] ∧ s ≠ surrogateKeyed := by
  refine ⟨check_eq_valid_iff.mpr (isDescribed_loose _), by decide +kernel, rfl,
    surrogateKeyed.normal, check_wire (isDescribed_loose _).isValid, by decide +kernel,
    by decide +kernel⟩

end Spell

end Grimoire
