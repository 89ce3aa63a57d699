import Grimoire.Proofs.Book.Requests
import Grimoire.Proofs.Schema.Meaning
import Grimoire.Proofs.Spell.NormalForm
import Grimoire.Tool.Conversation

/-!
# What the advertised schema lets through

A tool advertises a schema for its arguments, and the server checks them by the shape that the
schema comes from. A value meets the schema exactly if the shape admits it
(`Shape.meets_schema_iff`), and then the server finds no fault with it (`Shape.faults_of_admits`).
The wire form of every accepted spell meets the schema of the tool that creates spells, so a call
with it reaches the tool (`Tool.wire_meets_advertised`).
-/

namespace Grimoire

open Schema

/-! ## Names -/

/-- The set in the pattern of names holds the code points of names. -/
theorem Pattern.inSet_name_iff (c : CodePoint) :
    InSet "a-zA-Z0-9-" c ↔ Spell.isNameCodePoint c = true := by
  have set : ranges "a-zA-Z0-9-" = [(.scalar 'a', .scalar 'z'), (.scalar 'A', .scalar 'Z'),
    (.scalar '0', .scalar '9'), (.scalar '-', .scalar '-')] := by decide
  rw [InSet, set]
  simp only [List.exists_mem_cons_iff, List.not_mem_nil, false_and, exists_false, or_false]
  cases c with
  | scalar c =>
    have hyphen : c = '-' ↔ c.toNat = 45 := Char.toNat_inj.symm
    have name : Spell.isNameCodePoint (.scalar c)
        = (decide (c.val ≥ 65 ∧ c.val ≤ 90) || decide (c.val ≥ 97) && decide (c.val ≤ 122)
          || decide (c.val ≥ 48) && decide (c.val ≤ 57) || c == '-') := rfl
    simp only [name, ge_iff_le, UInt32.le_iff_toNat_le, Bool.or_eq_true, Bool.and_eq_true,
      decide_eq_true_eq, beq_iff_eq, hyphen]
    change (97 ≤ c.toNat ∧ c.toNat ≤ 122 ∨ 65 ≤ c.toNat ∧ c.toNat ≤ 90 ∨
      48 ≤ c.toNat ∧ c.toNat ≤ 57 ∨ 45 ≤ c.toNat ∧ c.toNat ≤ 45) ↔
      ((65 ≤ c.toNat ∧ c.toNat ≤ 90 ∨ 97 ≤ c.toNat ∧ c.toNat ≤ 122) ∨
        48 ≤ c.toNat ∧ c.toNat ≤ 57) ∨ c.toNat = 45
    omega
  | surrogate u =>
    -- Surrogates are behind all letters.
    simp [Spell.isNameCodePoint, CodePoint.satisfies, CodePoint.val]
    omega

namespace Shape

/-- Whether a text is a name. -/
def IsName (t : Text) : Prop := t ≠ [] ∧ ∀ c ∈ t, Spell.isNameCodePoint c = true

theorem finds_namePattern_iff (t : Text) : Pattern.Finds namePattern t ↔ IsName t := by
  have pieces : Pattern.pieces? none namePattern
      = some [.start, .oneOrMore "a-zA-Z0-9-", .finish] := by decide
  rw [Pattern.finds_iff pieces, IsName]
  simp only [Pattern.inSet_name_iff]

/-- A name also matches where a line end may follow. -/
theorem matchesName_of_isName {t : Text} (isName : IsName t) : matchesName t = true := by
  have last : t.getLast? ≠ some (.scalar '\n') := by
    intro last
    exact absurd (isName.2 _ (List.mem_of_getLast? last)) (by decide)
  rw [matchesName, if_neg last, Bool.and_eq_true, List.all_eq_true]
  refine ⟨?_, isName.2⟩
  rw [Bool.not_eq_true', List.isEmpty_eq_false_iff]
  exact isName.1

/-! ## What a shape admits -/

mutual

/-- Whether a shape admits a value. -/
def Admits : Shape → Json → Prop
  | text _ choices lengths isName, v => ∃ t, v = .str t ∧ (choices ≠ [] → t ∈ choices) ∧
      (∀ limits ∈ lengths, limits.1 ≤ t.length ∧ t.length ≤ limits.2) ∧ (isName = true → IsName t)
  | object _ fields needed, v => ∃ members, v = .obj members ∧
      (match fields with
        | some fields => AdmitsFields fields members
        | none => True) ∧
      ∀ key ∈ needed, key ∈ Entries.keys members

/-- Whether shapes admit the members of their names that are there. -/
def AdmitsFields : List (Text × Shape) → Members → Prop
  | [], _ => True
  | (name, shape) :: rest, members =>
    (∀ v, Entries.find? name members = some v → Admits shape v) ∧ AdmitsFields rest members

end

theorem meetsAll_member {key : Text} {w v : Json} :
    MeetsAll (member key w) v ↔ MeetsKeyword key w v :=
  meetsAll_singleton

theorem meets_description (t : Text) (v : Json) : MeetsAll (member "description" (.str t)) v :=
  meetsAll_member.mpr (.describes (by decide))

theorem meets_choices_iff {choices : List Text} {t : Text} :
    MeetsAll (listMember "enum" choices) (.str t) ↔ (choices ≠ [] → t ∈ choices) := by
  rw [listMember]
  cases choices with
  | nil => exact ⟨fun _ some => absurd rfl some, fun _ => meetsAll_nil _⟩
  | cons choice choices =>
    rw [List.isEmpty_cons, if_neg Bool.false_ne_true, meetsAll_member, meetsKeyword_enum_iff,
      List.mem_map_of_injective fun _ _ => Json.str.inj]
    simp

theorem meets_lengths_iff {lengths : Option (Nat × Nat)} {t : Text} :
    MeetsAll (lengthMembers lengths) (.str t)
      ↔ ∀ limits ∈ lengths, limits.1 ≤ t.length ∧ t.length ≤ limits.2 := by
  cases lengths with
  | none => simp [lengthMembers, meetsAll_nil]
  | some limits =>
    rw [lengthMembers, meetsAll_append, meetsAll_member, meetsAll_member,
      meetsKeyword_minLength_iff, meetsKeyword_maxLength_iff]
    simp

theorem meets_name_iff {isName : Bool} {t : Text} :
    MeetsAll (if isName then member "pattern" (.str namePattern) else []) (.str t)
      ↔ (isName = true → IsName t) := by
  cases isName with
  | false => simp [meetsAll_nil]
  | true => simp [meetsAll_member, meetsKeyword_pattern_iff, finds_namePattern_iff]

theorem meets_needed_iff {needed : List Text} {members : Members} :
    MeetsAll (listMember "required" needed) (.obj members)
      ↔ ∀ key ∈ needed, key ∈ Entries.keys members := by
  rw [listMember]
  cases needed with
  | nil => simp [meetsAll_nil]
  | cons key needed =>
    rw [List.isEmpty_cons, if_neg Bool.false_ne_true, meetsAll_member, meetsKeyword_required_iff]
    simp

theorem meets_properties_iff {fields members : Members} :
    MeetsAll (member "properties" (.obj fields)) (.obj members) ↔ ∀ e ∈ fields, ∀ w,
      Entries.find? e.1 members = some w → Meets e.2 w := by
  rw [meetsAll_member, meetsKeyword_properties_iff]
  simp

mutual

/-- A value meets the schema that advertises a shape exactly if the shape admits it. -/
theorem meets_schema_iff (shape : Shape) (v : Json) :
    Meets (.obj shape.schema) v ↔ shape.Admits v := by
  cases shape with
  | text description choices lengths isName =>
    rw [meets_object_iff, schema, meetsAll_append, meetsAll_append, meetsAll_append,
      meetsAll_append, meetsAll_member, meetsKeyword_type_iff, hasKind_string_iff, Admits]
    constructor
    · rintro ⟨⟨⟨⟨⟨t, rfl⟩, chosen⟩, -⟩, within⟩, named⟩
      exact ⟨t, rfl, meets_choices_iff.mp chosen, meets_lengths_iff.mp within,
        meets_name_iff.mp named⟩
    · rintro ⟨t, rfl, chosen, within, named⟩
      exact ⟨⟨⟨⟨⟨t, rfl⟩, meets_choices_iff.mpr chosen⟩, meets_description description _⟩,
        meets_lengths_iff.mpr within⟩, meets_name_iff.mpr named⟩
  | object description fields needed =>
    rw [meets_object_iff, schema.eq_def]
    dsimp only
    rw [meetsAll_append, meetsAll_append, meetsAll_append, meetsAll_member, meetsKeyword_type_iff,
      hasKind_object_iff, Admits]
    constructor
    · rintro ⟨⟨⟨⟨members, rfl⟩, -⟩, each⟩, present⟩
      refine ⟨members, rfl, ?_, meets_needed_iff.mp present⟩
      cases fields with
      | none => trivial
      | some fields => exact (meets_schemas_iff fields members).mp (meets_properties_iff.mp each)
    · rintro ⟨members, rfl, each, present⟩
      refine ⟨⟨⟨⟨members, rfl⟩, ?_⟩, ?_⟩, meets_needed_iff.mpr present⟩
      · cases description with
        | none => exact meetsAll_nil _
        | some t => exact meets_description t _
      · cases fields with
        | none => exact meetsAll_nil _
        | some fields =>
          exact meets_properties_iff.mpr ((meets_schemas_iff fields members).mpr each)

theorem meets_schemas_iff (fields : List (Text × Shape)) (members : Members) :
    (∀ e ∈ schemas fields, ∀ w, Entries.find? e.1 members = some w → Meets e.2 w)
      ↔ AdmitsFields fields members := by
  cases fields with
  | nil => exact ⟨fun _ => trivial, fun _ => List.forall_mem_nil _⟩
  | cons field fields =>
    rw [schemas, List.forall_mem_cons, AdmitsFields, meets_schemas_iff fields members]
    exact and_congr_left fun _ => forall_congr' fun w => imp_congr_right fun _ =>
      meets_schema_iff field.2 w

end

/-! ## What the server checks -/

theorem choiceFaults_eq_nil {choices : List Text} {t : Text} (chosen : choices ≠ [] → t ∈ choices)
    (hasKind : Bool) : choiceFaults choices (.str t) hasKind = [] := by
  rw [choiceFaults, if_pos]
  cases choices with
  | nil => rfl
  | cons choice choices =>
    have found : (choice :: choices).contains t = true :=
      List.contains_iff_mem.mpr (chosen (List.cons_ne_nil _ _))
    rw [Json.text?, Option.any_some, found, Bool.or_true]

theorem lengthFaults_eq_nil {lengths : Option (Nat × Nat)} {t : Text}
    (within : ∀ limits ∈ lengths, limits.1 ≤ t.length ∧ t.length ≤ limits.2) :
    lengthFaults lengths t = [] := by
  cases lengths with
  | none => rfl
  | some limits =>
    obtain ⟨long, short⟩ := within limits rfl
    rw [lengthFaults, if_neg (Nat.not_lt.mpr long), if_neg (Nat.not_lt.mpr short)]
    rfl

mutual

/-- The server finds no fault with what a shape admits. -/
theorem faults_of_admits (shape : Shape) {v : Json} (admits : shape.Admits v) :
    shape.faults v = [] := by
  cases shape with
  | text description choices lengths isName =>
    rw [Admits] at admits
    obtain ⟨t, rfl, chosen, within, named⟩ := admits
    have name : (isName && !matchesName t) = false := by
      cases isName with
      | false => rfl
      | true => rw [matchesName_of_isName (named rfl)]; rfl
    rw [faults, choiceFaults_eq_nil chosen, lengthFaults_eq_nil within, name]
    rfl
  | object description fields needed =>
    rw [Admits.eq_def] at admits
    obtain ⟨members, rfl, each, present⟩ := admits
    have none : (needed.filter fun key => !Entries.hasKey key members) = [] := by
      rw [List.filter_eq_nil_iff]
      intro key member
      simp [Entries.hasKey_iff.mpr (present key member)]
    rw [faults.eq_def]
    dsimp only
    rw [none, List.map_nil, List.append_nil]
    cases fields with
    | none => rfl
    | some fields => exact fieldFaults_of_admits fields each

theorem fieldFaults_of_admits (fields : List (Text × Shape)) {members : Members}
    (each : AdmitsFields fields members) : fieldFaults fields members = [] := by
  cases fields with
  | nil => rfl
  | cons field fields =>
    rw [AdmitsFields] at each
    rw [fieldFaults, fieldFaults_of_admits fields each.2, List.append_nil]
    cases found : Entries.find? field.1 members with
    | none => rfl
    | some v =>
      dsimp only
      rw [faults_of_admits field.2 (each.1 v found)]
      rfl

end

end Shape

namespace Shape

variable {members : Members}

theorem admits_object (description : Option Text) (members : Members) :
    Admits (.object description none []) (.obj members) :=
  ⟨members, rfl, trivial, List.forall_mem_nil _⟩

theorem admitsFields_cons {name : Text} {shape : Shape} {rest : List (Text × Shape)} {v : Json}
    (found : Entries.find? name members = some v) (admits : shape.Admits v)
    (others : AdmitsFields rest members) : AdmitsFields ((name, shape) :: rest) members := by
  refine ⟨fun w given => ?_, others⟩
  obtain rfl := Option.some.inj (found.symm.trans given)
  exact admits

theorem mem_keys_of_find? {key : Text} {v : Json} (found : Entries.find? key members = some v) :
    key ∈ Entries.keys members :=
  List.mem_map_of_mem (Entries.mem_of_find? found)

end Shape

namespace Tool

open Shape

variable {s : Spell} {arguments : Members}

/-! ## Wire forms as arguments -/

theorem admits_wireAction (a : Action) : actionShape.Admits (Spell.wireAction a) := by
  obtain ⟨members, config, wire, type, configured⟩ : ∃ members config,
      Spell.wireAction a = .obj members ∧ Entries.find? "type" members = some (.str a.kind) ∧
        Entries.find? "config" members = some (.obj config) := by
    cases a <;> exact ⟨_, _, rfl, rfl, rfl⟩
  have kind : a.kind ∈ [("http" : Text), "script"] := by
    cases a <;> simp [Action.kind]
  rw [wire]
  refine ⟨members, rfl, ?_, ?_⟩
  · refine admitsFields_cons type ⟨a.kind, rfl, fun _ => kind, by simp, by simp⟩ ?_
    exact admitsFields_cons configured (admits_object _ config) trivial
  · simp only [List.forall_mem_cons]
    exact ⟨mem_keys_of_find? type, mem_keys_of_find? configured, List.forall_mem_nil _⟩

/-- Whether arguments hold what the wire form of a spell holds beside the identifier. -/
structure HasFields (s : Spell) (arguments : Members) : Prop where
  name : Entries.find? "name" arguments = some (.str s.name)
  description : Entries.find? "description" arguments = some (.str s.description)
  input : Entries.find? "inputSchema" arguments = some (.obj (Spell.wireSchema s.inputSchema))
  output : Entries.find? "outputSchema" arguments = some (.obj (Spell.wireSchema s.outputSchema))
  action : Entries.find? "action" arguments = some (Spell.wireAction s.action)

theorem createSpell_admits {candidate : Members} (described : s.IsDescribed candidate)
    (fields : HasFields s arguments) : createSpell.arguments.Admits (.obj arguments) := by
  obtain ⟨-, long, short⟩ := described.nameWithin
  obtain ⟨-, long', short'⟩ := described.descriptionWithin
  have isName : IsName s.name := by
    refine ⟨fun empty => ?_, described.nameCodePoints⟩
    rw [empty] at long
    exact absurd long (by decide)
  refine ⟨arguments, rfl, ?_, ?_⟩
  · refine admitsFields_cons fields.name ⟨s.name, rfl, fun some => absurd rfl some, ?_,
      fun _ => isName⟩ ?_
    · rintro limits ⟨⟩
      exact ⟨long, short _ rfl⟩
    refine admitsFields_cons fields.description ⟨s.description, rfl, fun some => absurd rfl some,
      ?_, by simp⟩ ?_
    · rintro limits ⟨⟩
      exact ⟨long', short' _ rfl⟩
    refine admitsFields_cons fields.input (admits_object _ _) ?_
    refine admitsFields_cons fields.output (admits_object _ _) ?_
    exact admitsFields_cons fields.action (admits_wireAction s.action) trivial
  · simp only [spellFields, List.map_cons, List.map_nil, List.forall_mem_cons]
    exact ⟨mem_keys_of_find? fields.name, mem_keys_of_find? fields.description,
      mem_keys_of_find? fields.input, mem_keys_of_find? fields.output,
      mem_keys_of_find? fields.action, List.forall_mem_nil _⟩

theorem hasFields_wire {members : Members} (wired : s.wire? = .ok (.obj members)) :
    HasFields s members ∧ HasFields s (Entries.erase "id" members) := by
  obtain ⟨-, wire⟩ := Spell.wire?_eq_ok_iff.mp wired
  obtain rfl := Json.obj.inj wire
  exact ⟨⟨rfl, rfl, rfl, rfl, rfl⟩, ⟨rfl, rfl, rfl, rfl, rfl⟩⟩

/-- What the schema of a tool says beside what its shape says only describes. -/
theorem meets_schema_iff {tool : Tool} {v : Json} :
    Meets (.obj tool.schema) v ↔ tool.arguments.Admits v := by
  have head : MeetsAll tool.schemaHead v := by
    intro e member
    refine .describes ?_
    revert member
    cases tool with
    | createSpell =>
      revert e
      decide
    | listSpells => exact fun member => absurd member List.not_mem_nil
  rw [← Shape.meets_schema_iff, meets_object_iff, meets_object_iff, schema, meetsAll_append]
  exact and_iff_right head

/-- Arguments that meet the advertised schema are not refused. -/
theorem refusal?_of_meets {tool : Tool} (meets : Meets (.obj tool.schema) (.obj arguments)) :
    refusal? tool.name arguments = none := by
  rw [refusal?, find?_name, Option.bind_some, complaint?,
    faults_of_admits _ (meets_schema_iff.mp meets)]
  rfl

/-- A request to call a tool is answered once the client is ready. -/
theorem answer_call (place : Option Text) (id : Json) (params : Members) :
    Conversation.answer place ⟨true⟩ id "tools/call" params = (do
      let answer ← call place (Conversation.textAt "name" params)
        (Conversation.objectAt "arguments" params)
      return Conversation.reply id (Conversation.content answer)) := by
  have introduce : ¬("tools/call" : Text) = "initialize" := by decide
  have ping : ¬("tools/call" : Text) = "ping" := by decide
  have list : ¬("tools/call" : Text) = "tools/list" := by decide
  rw [Conversation.answer, if_neg introduce, if_neg ping, if_neg (by decide), if_neg list,
    if_pos rfl]

/-- Whether a request for the tool that creates spells makes the tool run with the arguments of the
request; what the tool gives or how it fails is the answer. -/
def RunsCreate (arguments : Members) : Prop :=
  ∀ (place : Option Text) (id : Json) (params : Members),
    Conversation.textAt "name" params = createSpell.name →
    Conversation.objectAt "arguments" params = arguments →
    Conversation.answer place ⟨true⟩ id "tools/call" params = (do
      let answer ← tryCatch (do
          Act.note .info .server "tool call" [("tool", .str createSpell.name)]
          return ⟨false, ← runCreate place arguments⟩)
        fun failure => return ⟨true, [failure.message]⟩
      return Conversation.reply id (Conversation.content answer))

theorem runsCreate_of_refusal? (passes : refusal? createSpell.name arguments = none) :
    RunsCreate arguments := by
  intro place id params named given
  rw [answer_call place id params, named, given, call, passes]
  simp only [run, find?_name, bind_assoc]

/-- The wire form of an accepted spell, with its identifier or without it, meets the schema that the
tool which creates spells advertises. So it is not refused as arguments, and the tool runs with
it. -/
theorem wire_meets_advertised {candidate v : Json} (valid : Spell.check candidate = .valid s)
    (wired : s.wire? = .ok v) : ∃ members, v = .obj members ∧
      ∀ arguments ∈ [members, Entries.erase "id" members],
        Meets (.obj createSpell.schema) (.obj arguments) ∧
          refusal? createSpell.name arguments = none ∧ RunsCreate arguments := by
  obtain ⟨fields, rfl⟩ := Spell.isObject_of_check valid
  have described : s.IsDescribed fields := Spell.check_eq_valid_iff.mp valid
  obtain ⟨-, rfl⟩ := Spell.wire?_eq_ok_iff.mp wired
  obtain ⟨whole, anonymous⟩ := hasFields_wire wired
  have each : ∀ arguments, HasFields s arguments →
      Meets (.obj createSpell.schema) (.obj arguments) ∧
        refusal? createSpell.name arguments = none ∧ RunsCreate arguments := by
    intro arguments has
    have meets : Meets (.obj createSpell.schema) (.obj arguments) :=
      meets_schema_iff.mpr (createSpell_admits described has)
    exact ⟨meets, refusal?_of_meets meets, runsCreate_of_refusal? (refusal?_of_meets meets)⟩
  refine ⟨_, rfl, ?_⟩
  rw [List.forall_mem_cons, List.forall_mem_singleton]
  exact ⟨each _ whole, each _ anonymous⟩

theorem wire_meets_advertised_loose :
    Spell.check (.obj Spell.looseMembers) = .valid Spell.loose ∧
      Spell.loose.wire? = .ok Spell.loose.wire ∧
      ∃ members, Spell.loose.wire = .obj members ∧
        ∀ arguments ∈ [members, Entries.erase "id" members],
          Meets (.obj createSpell.schema) (.obj arguments) ∧
            refusal? createSpell.name arguments = none ∧ RunsCreate arguments := by
  have valid : Spell.check (.obj Spell.looseMembers) = .valid Spell.loose :=
    Spell.check_eq_valid_iff.mpr (Spell.isDescribed_loose Spell.loose.inputSchema)
  have wired : Spell.loose.wire? = .ok Spell.loose.wire := by rfl
  exact ⟨valid, wired, wire_meets_advertised valid wired⟩

end Tool

end Grimoire
