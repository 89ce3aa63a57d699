import Grimoire.Proofs.Entries
import Grimoire.Proofs.Json.Finite
import Grimoire.Spell.Check
import Grimoire.Spell.Wire

/-!
# Spells and their wire forms

A spell that came out of a check satisfies the rules (`Spell.IsChecked.rules`), and the wire form of
such a spell passes the check and gives the spell back in its normal form (`Spell.check_wire`), which
has null for the numbers in its schemas that are not finite and mended keys.
-/

namespace Grimoire

/-- A surrogate that stands alone: the text cannot be encoded. -/
def Text.loneSurrogate : Text := [.surrogate ⟨0, by decide⟩]

/-! ## Checks that pass -/

/-- Whether members are of known keys only. -/
def Entries.AreOf (known : List Text) (members : Members) : Prop :=
  ∀ key ∈ Entries.keys members, key ∈ known

instance (known : List Text) (members : Members) : Decidable (Entries.AreOf known members) :=
  inferInstanceAs (Decidable (∀ key ∈ Entries.keys members, key ∈ known))

namespace Checked

variable {α β : Type}

theorem map_valid (f : α → β) (a : α) : f <$> valid a = valid (f a) := rfl

theorem map_eq_valid {f : α → β} {x : Checked α} {b : β} :
    f <$> x = valid b ↔ ∃ a, x = valid a ∧ f a = b := by
  cases x with
  | valid a =>
    rw [map_valid]
    simp
  | invalid p ps =>
    constructor
    · intro h
      change invalid p ps = valid b at h
      exact absurd h (by simp)
    · rintro ⟨a, h, -⟩
      exact absurd h (by simp)

theorem seq_eq_valid {f : Checked (α → β)} {x : Checked α} {b : β} :
    f <*> x = valid b ↔ ∃ g a, f = valid g ∧ x = valid a ∧ g a = b := by
  change apply f x = valid b ↔ _
  cases f <;> cases x <;> simp [apply]

theorem required_eq_valid {place : Place} {rule : Json → Checked α} {v : Option Json} {a : α} :
    required place rule v = valid a ↔ ∃ w, v = some w ∧ rule w = valid a := by
  cases v <;> simp [required, fail]

theorem textWith_eq_valid {place : Place} {test : Text → Option Fault} {v : Json} {t : Text} :
    textWith place test v = valid t ↔ v = .str t ∧ test t = none := by
  cases v with
  | str u =>
    simp only [textWith, Json.str.injEq]
    cases h : test u with
    | none =>
      constructor
      · intro same
        obtain rfl : u = t := by simpa using same
        exact ⟨rfl, h⟩
      · rintro ⟨rfl, -⟩
        rfl
    | some fault =>
      constructor
      · intro same
        exact absurd same (by simp [fail])
      · rintro ⟨rfl, none⟩
        exact absurd (h.symm.trans none) (by simp)
  | _ => simp [textWith, fail]

theorem ofProblems_eq_valid {a b : α} {problems : List Problem} :
    ofProblems a problems = valid b ↔ problems = [] ∧ a = b := by
  cases problems <;> simp [ofProblems]

theorem permitted_eq_valid {place : Place} {known : List Text} {members : Members} {u : Unit} :
    permitted place known members = valid u ↔ Entries.AreOf known members := by
  rw [permitted, ofProblems_eq_valid, List.map_eq_nil_iff, List.filter_eq_nil_iff, Entries.AreOf,
    Entries.keys, List.forall_mem_map]
  simp

/-- Known keys can be encoded, so that a model of such keys is as good as its fields. -/
theorem closed_eq_valid {place : Place} {known : List Text} {members : Members} {rule : Checked α}
    {a : α} (plain : ∀ key ∈ known, key.isEncodable = true) :
    closed place known members rule = valid a ↔
      rule = valid a ∧ Entries.AreOf known members := by
  rw [closed]
  split
  · rw [seq_eq_valid]
    constructor
    · rintro ⟨_, _, first, last, rfl⟩
      obtain ⟨b, ruled, rfl⟩ := map_eq_valid.mp first
      exact ⟨ruled, permitted_eq_valid.mp last⟩
    · rintro ⟨ruled, areOf⟩
      exact ⟨_, (), map_eq_valid.mpr ⟨a, ruled, rfl⟩, permitted_eq_valid.mpr areOf, rfl⟩
  · next unreadable =>
    refine iff_of_false (by simp [fail]) fun both => unreadable (List.all_eq_true.mpr ?_)
    exact fun key member => plain key (both.2 key member)

theorem literal_eq_valid {place : Place} {ofText? : Text → Option α} {fault : Fault} {v : Json}
    {a : α} : literal place ofText? fault v = valid a ↔ ∃ t, v = .str t ∧ ofText? t = some a := by
  cases v with
  | str t => cases found : ofText? t <;> simp [literal, found, fail]
  | _ => simp [literal, fail]

theorem object_eq_valid {place : Place} {fault : Fault} {v : Json} {ms : Members} :
    object place fault v = valid ms ↔ v = .obj ms := by
  cases v <;> simp [object, fail]

end Checked

/-! ## Normal forms of actions -/

/-- The request with mended names of headers. -/
def HttpRequest.normal (r : HttpRequest) : HttpRequest :=
  { r with headers := r.headers.map (Entries.mapKeys Text.mend) }

/-- The action with mended names of headers. -/
def Action.normal : Action → Action
  | .http r => .http r.normal
  | .script code => .script code

namespace Spell

open Checked

/-! ## Rules -/

/-- Whether an action satisfies the rules. -/
def ActionIsValid : Action → Prop
  | .http r => Url.isAbsolute r.url = true
  | .script code => lengthFault? 1 none code = none

/-- Whether a spell satisfies the rules. -/
structure IsValid (s : Spell) : Prop where
  id : isUuid s.id = true
  name : nameFault? s.name = none
  description : descriptionFault? s.description = none
  action : ActionIsValid s.action

/-- The keys of the headers of an action. -/
def headerKeys : Action → List Text
  | .http r => Entries.keys r.headerEntries
  | .script _ => []

/-- Whether no object in a spell has a key twice. -/
structure IsProper (s : Spell) : Prop where
  input : (Json.obj s.inputSchema).isProper = true
  output : (Json.obj s.outputSchema).isProper = true
  headers : (headerKeys s.action).Nodup

/-- Whether a spell came out of a check of a candidate without objects that have a key twice. -/
def IsChecked (s : Spell) : Prop :=
  ∃ candidate : Json, candidate.isProper = true ∧ check candidate = .valid s

theorem checkSchema_eq_valid {key other : Text} {candidate ms : Members}
    (h : checkSchema key other candidate = .valid ms) :
    ∃ k, Entries.find? k candidate = some (.obj ms) := by
  unfold checkSchema at h
  split at h
  · next _ found => exact ⟨other, (object_eq_valid.mp h) ▸ found⟩
  · obtain ⟨w, found, object⟩ := required_eq_valid.mp h
    exact ⟨key, (object_eq_valid.mp object) ▸ found⟩

theorem keys_of_headers {place : Place} {members : Members} {headers : Entries Text}
    (h : members.foldr (fun (k, v) rest =>
      (fun t entries => (k, t) :: entries) <$> text (place ++ [.key k.mend]) v <*> rest) (valid [])
        = valid headers) : Entries.keys headers = Entries.keys members := by
  induction members generalizing headers with
  | nil =>
    obtain rfl : [] = headers := by simpa using h
    rfl
  | cons m members ih =>
    obtain ⟨g, rest, first, last, rfl⟩ := seq_eq_valid.mp h
    obtain ⟨t, -, rfl⟩ := map_eq_valid.mp first
    simp only [Entries.keys, List.map_cons] at ih ⊢
    rw [ih last]

theorem find?_isProper {key : Text} {ms : Members} {v : Json}
    (proper : Json.isProperMembers ms = true) (found : Entries.find? key ms = some v) :
    v.isProper = true := by
  induction ms with
  | nil => exact absurd found (by simp [Entries.find?])
  | cons m ms ih =>
    obtain ⟨k, w⟩ := m
    simp only [Json.isProperMembers, Bool.and_eq_true] at proper
    rw [Entries.find?] at found
    split at found
    · exact Option.some.inj found ▸ proper.1
    · exact ih proper.2 found

theorem headers_of_checkHeaders {place : Place} {v : Option Json} {headers : Option (Entries Text)}
    (proper : ∀ w ∈ v, w.isProper = true) (h : checkHeaders place v = .valid headers) :
    (Entries.keys (headers.getD [])).Nodup := by
  unfold checkHeaders Checked.optional at h
  split at h
  · obtain rfl : none = headers := by simpa using h
    exact List.nodup_nil
  · obtain rfl : none = headers := by simpa using h
    exact List.nodup_nil
  · next w _ =>
    obtain ⟨entries, rule, rfl⟩ := map_eq_valid.mp h
    cases w with
    | obj members =>
      have proper := proper _ rfl
      rw [Json.isProper, Bool.and_eq_true, decide_eq_true_eq] at proper
      rw [Option.getD_some, keys_of_headers rule]
      exact proper.1
    | _ => exact absurd rule (by simp [fail])

theorem action_of_checkKind {kind : Text} {model : String} {rule : Place → Members → Checked Action}
    {action : Members} {a : Action} (h : checkKind kind model rule action = .valid a) :
    ∃ config, Entries.find? "config" action = some (.obj config) ∧
      rule ([.key "action", .key kind] ++ [.key "config"]) config = .valid a := by
  obtain ⟨w, found, ruled⟩ := required_eq_valid.mp ((closed_eq_valid (by decide)).mp h).1
  cases w with
  | obj config => exact ⟨config, found, ruled⟩
  | _ => exact absurd ruled (by simp [fail])

theorem request_of_checkRequest {place : Place} {config : Members} {r : HttpRequest}
    (proper : Json.isProperMembers config = true) (h : checkRequest place config = .valid r) :
    Url.isAbsolute r.url = true ∧ (Entries.keys r.headerEntries).Nodup := by
  obtain ⟨_, body, h₂, -, rfl⟩ := seq_eq_valid.mp ((closed_eq_valid (by decide)).mp h).1
  obtain ⟨_, headers, h₃, headersValid, rfl⟩ := seq_eq_valid.mp h₂
  obtain ⟨_, method, h₄, -, rfl⟩ := seq_eq_valid.mp h₃
  obtain ⟨url, urlValid, rfl⟩ := map_eq_valid.mp h₄
  obtain ⟨w, -, urlValid⟩ := required_eq_valid.mp urlValid
  constructor
  · have fault := (textWith_eq_valid.mp urlValid).2
    by_contra no
    exact absurd fault (by simp [no])
  · refine headers_of_checkHeaders (fun w found => ?_) headersValid
    exact find?_isProper proper found

theorem action_of_checkAction {v : Option Json} {a : Action} (proper : ∀ w ∈ v, w.isProper = true)
    (h : checkAction v = .valid a) : ActionIsValid a ∧ (headerKeys a).Nodup := by
  obtain ⟨w, rfl, rule⟩ := required_eq_valid.mp h
  cases w with
  | obj action =>
    have proper := proper _ rfl
    rw [Json.isProper, Bool.and_eq_true] at proper
    have config : ∀ {config}, Entries.find? "config" action = some (.obj config) →
        Json.isProperMembers config = true := by
      intro config found
      have := find?_isProper proper.2 found
      rw [Json.isProper, Bool.and_eq_true] at this
      exact this.2
    dsimp only at rule
    split at rule
    · exact absurd rule (by simp [fail])
    · split at rule
      · obtain ⟨members, found, ruled⟩ := action_of_checkKind rule
        obtain ⟨r, request, rfl⟩ := map_eq_valid.mp ruled
        exact request_of_checkRequest (config found) request
      · split at rule
        · obtain ⟨members, found, ruled⟩ := action_of_checkKind rule
          obtain ⟨code, script, rfl⟩ := map_eq_valid.mp ruled
          obtain ⟨_, code, ruled₂, codeValid, rfl⟩ :=
            seq_eq_valid.mp ((closed_eq_valid (by decide)).mp script).1
          obtain ⟨_, -, rfl⟩ := map_eq_valid.mp ruled₂
          obtain ⟨w, -, codeRule⟩ := required_eq_valid.mp codeValid
          exact ⟨(textWith_eq_valid.mp codeRule).2, List.nodup_nil⟩
        · exact absurd rule (by simp [fail])
  | _ => exact absurd rule (by simp [fail])

/-- The parts of a spell that came out of a check came out of the checks of the members. -/
theorem parts_of_check {candidate : Json} {s : Spell} (h : check candidate = .valid s) :
    ∃ members, candidate = .obj members ∧
      checkId (Entries.find? "id" members) = .valid s.id ∧
      checkName (Entries.find? "name" members) = .valid s.name ∧
      checkDescription (Entries.find? "description" members) = .valid s.description ∧
      checkSchema "inputSchema" "input_schema" members = .valid s.inputSchema ∧
      checkSchema "outputSchema" "output_schema" members = .valid s.outputSchema ∧
      checkAction (Entries.find? "action" members) = .valid s.action := by
  cases candidate with
  | obj members =>
    obtain ⟨_, action, h₁, actionValid, rfl⟩ := seq_eq_valid.mp h
    obtain ⟨_, output, h₂, outputValid, rfl⟩ := seq_eq_valid.mp h₁
    obtain ⟨_, input, h₃, inputValid, rfl⟩ := seq_eq_valid.mp h₂
    obtain ⟨_, description, h₄, descriptionValid, rfl⟩ := seq_eq_valid.mp h₃
    obtain ⟨_, name, h₅, nameValid, rfl⟩ := seq_eq_valid.mp h₄
    obtain ⟨id, idValid, rfl⟩ := map_eq_valid.mp h₅
    exact ⟨members, rfl, idValid, nameValid, descriptionValid, inputValid, outputValid, actionValid⟩
  | _ => exact absurd h (by simp [check, fail])

/-- The schemas of a spell that came out of a check are values of the candidate. -/
theorem schemas_of_check {candidate : Json} {s : Spell} (h : check candidate = .valid s) :
    ∃ members inputKey outputKey, candidate = .obj members ∧
      Entries.find? inputKey members = some (.obj s.inputSchema) ∧
      Entries.find? outputKey members = some (.obj s.outputSchema) := by
  obtain ⟨members, rfl, -, -, -, input, output, -⟩ := parts_of_check h
  obtain ⟨inputKey, inputFound⟩ := checkSchema_eq_valid input
  obtain ⟨outputKey, outputFound⟩ := checkSchema_eq_valid output
  exact ⟨members, inputKey, outputKey, rfl, inputFound, outputFound⟩

/-- What came out of a check satisfies the rules, and no object in it has a key twice. -/
theorem IsChecked.rules {s : Spell} (checked : s.IsChecked) : s.IsValid ∧ s.IsProper := by
  obtain ⟨candidate, proper, h⟩ := checked
  obtain ⟨members, inputKey, outputKey, rfl, input, output⟩ := schemas_of_check h
  obtain ⟨_, same, id, name, description, -, -, action⟩ := parts_of_check h
  obtain rfl := Json.obj.inj same
  rw [Json.isProper, Bool.and_eq_true] at proper
  obtain ⟨_, -, idTest⟩ := required_eq_valid.mp id
  obtain ⟨_, -, nameTest⟩ := required_eq_valid.mp name
  obtain ⟨_, -, descriptionTest⟩ := required_eq_valid.mp description
  obtain ⟨actionRule, headers⟩ :=
    action_of_checkAction (fun w found => find?_isProper proper.2 found) action
  have idRule : isUuid s.id = true := by
    have fault := (textWith_eq_valid.mp idTest).2
    by_contra no
    exact absurd fault (by simp [no])
  exact ⟨⟨idRule, (textWith_eq_valid.mp nameTest).2, (textWith_eq_valid.mp descriptionTest).2,
    actionRule⟩, find?_isProper proper.2 input, find?_isProper proper.2 output, headers⟩

/-! ## Wire forms -/

/-- The spell as its wire form has it: with null in the place of the numbers in its schemas that are not
finite, and with mended keys of schemas and names of headers. -/
def normal (s : Spell) : Spell :=
  { s with
    inputSchema := wireSchema s.inputSchema
    outputSchema := wireSchema s.outputSchema
    action := s.action.normal }

/-- Whether all numbers in the schemas of a spell are finite. -/
def isFinite (s : Spell) : Bool :=
  (Json.obj s.inputSchema).isFinite && (Json.obj s.outputSchema).isFinite

/-- The keys that are mended on the wire: those of the schemas themselves and the names of headers. -/
def outerNames (s : Spell) : List Text :=
  Entries.keys s.inputSchema ++ Entries.keys s.outputSchema ++ headerKeys s.action

/-- Whether a spell loses nothing on the wire. -/
def isNormal (s : Spell) : Bool := s.isFinite && s.outerNames.all Text.isEncodable

/-! ### Schemas -/

theorem nodup_keys_wireSchema (schema : Members) : (Entries.keys (wireSchema schema)).Nodup :=
  Entries.nodup_keys_mapKeys _

/-- What stands in the wire form of a schema stands in the schema, but for numbers that are not
finite. -/
theorem mem_wireSchema {schema : Members} {m : Text × Json} (member : m ∈ wireSchema schema) :
    ∃ n ∈ schema, m.2 = n.2.finite := by
  obtain ⟨k, inside, -⟩ := Entries.mem_mapKeys member
  rw [Json.finiteMembers_eq] at inside
  obtain ⟨n, there, same⟩ := List.mem_map.mp inside
  exact ⟨n, there, (congrArg Prod.snd same).symm⟩

theorem wireSchema_wireSchema (schema : Members) :
    wireSchema (wireSchema schema) = wireSchema schema := by
  have twice : Json.finiteMembers (wireSchema schema) = wireSchema schema := by
    rw [wireSchema, Json.finiteMembers_eq, ← Entries.mapKeys_map, ← Json.finiteMembers_eq,
      Json.finiteMembers_finiteMembers]
  rw [wireSchema, twice]
  exact Entries.mapKeys_mapKeys Text.mend_mend _

theorem levels_wireSchema (schema : Members) :
    (Json.obj (wireSchema schema)).levels ≤ (Json.obj schema).levels := by
  have positive : (Json.obj schema).levels = (Json.obj schema).levels - 1 + 1 := rfl
  rw [positive]
  refine Json.levels_obj_le fun m member => ?_
  obtain ⟨n, inside, same⟩ := mem_wireSchema member
  rw [same, Json.levels_finite]
  exact Nat.le_sub_one_of_lt (Json.levels_member_lt inside)

theorem isProper_wireSchema {schema : Members} (proper : (Json.obj schema).isProper = true) :
    (Json.obj (wireSchema schema)).isProper = true := by
  rw [Json.isProper, Bool.and_eq_true, Json.isProperMembers_eq, List.all_eq_true] at proper
  rw [Json.isProper, Bool.and_eq_true, decide_eq_true_eq, Json.isProperMembers_eq,
    List.all_eq_true]
  refine ⟨nodup_keys_wireSchema schema, fun m member => ?_⟩
  obtain ⟨n, inside, same⟩ := mem_wireSchema member
  rw [same, Json.isProper_finite]
  exact proper.2 n inside

theorem isWritable_wireSchema {schema : Members} (writable : (Json.obj schema).isWritable = true) :
    (Json.obj (wireSchema schema)).isWritable = true := by
  refine Json.isWritable_obj.mpr fun m member => ?_
  obtain ⟨n, inside, same⟩ := mem_wireSchema member
  rw [same, Json.isWritable_finite]
  exact Json.isWritable_member writable inside

/-! ### Names further down -/

theorem forall_mem_namesItems {q : Text → Prop} {vs : List Json} :
    (∀ t ∈ Json.namesItems vs, q t) ↔ ∀ v ∈ vs, ∀ t ∈ v.names, q t := by
  induction vs with
  | nil => simp [Json.namesItems]
  | cons v vs ih => rw [Json.namesItems, List.forall_mem_append, ih, List.forall_mem_cons]

theorem forall_mem_innerNames {q : Text → Prop} {schema : Members} :
    (∀ t ∈ Json.namesItems (Entries.values schema), q t) ↔
      ∀ m ∈ schema, ∀ t ∈ m.2.names, q t := by
  rw [forall_mem_namesItems, Entries.values, List.forall_mem_map]

theorem innerNames_wireSchema {q : Text → Prop} {schema : Members}
    (all : ∀ t ∈ Json.namesItems (Entries.values schema), q t) :
    ∀ t ∈ Json.namesItems (Entries.values (wireSchema schema)), q t := by
  rw [forall_mem_innerNames] at all ⊢
  intro m member
  obtain ⟨n, inside, same⟩ := mem_wireSchema member
  rw [same, Json.names_finite]
  exact all n inside

/-! ### Checking wire forms -/

theorem wireHeaders_eq (headers : Entries Text) :
    wireHeaders headers = .obj ((Entries.mapKeys Text.mend headers).map fun header =>
      (header.1, Json.str header.2)) := rfl

theorem checkHeaders_wireHeaders (place : Place) (headers : Option (Entries Text)) :
    checkHeaders place (headers.map wireHeaders)
      = .valid (headers.map (Entries.mapKeys Text.mend)) := by
  cases headers with
  | none => rfl
  | some headers =>
    have texts : ∀ headers : Entries Text,
        (headers.map fun header => (header.1, Json.str header.2)).foldr (fun member rest =>
          (fun t entries => (member.1, t) :: entries)
            <$> text (place ++ [.key member.1.mend]) member.2 <*> rest)
          (valid []) = valid headers := by
      intro headers
      induction headers with
      | nil => rfl
      | cons header headers ih =>
        simp only [List.map_cons, List.foldr_cons, ih]
        rfl
    change some <$> _ = _
    rw [wireHeaders]
    simp only [texts]
    rfl

theorem checkRequest_wireRequest (place : Place) {r : HttpRequest}
    (url : Url.isAbsolute r.url = true) : checkRequest place (wireRequest r) = .valid r.normal := by
  obtain ⟨address, method, headers, body⟩ := r
  have urlFound : Entries.find? "url" (wireRequest ⟨address, method, headers, body⟩)
      = some (.str address) := rfl
  have methodFound : Entries.find? "method" (wireRequest ⟨address, method, headers, body⟩)
      = some (.str method.name) := rfl
  have headersFound : Entries.find? "headers" (wireRequest ⟨address, method, headers, body⟩)
      = headers.map wireHeaders := by
    cases headers <;> cases body <;> rfl
  have bodyFound : Entries.find? "body" (wireRequest ⟨address, method, headers, body⟩)
      = body.map Json.str := by
    cases headers <;> cases body <;> rfl
  have known : Entries.AreOf ["url", "method", "headers", "body"]
      (wireRequest ⟨address, method, headers, body⟩) := by
    have permits : permitted place ["url", "method", "headers", "body"]
        (wireRequest ⟨address, method, headers, body⟩) = .valid () := by
      cases headers <;> cases body <;> rfl
    exact permitted_eq_valid.mp permits
  have bodyValid : ∀ place, Checked.optional (text place) (body.map Json.str) = .valid body := by
    intro place
    cases body <;> rfl
  have methodValid : ∀ place, checkMethod place (some (.str method.name)) = .valid method := by
    intro place
    simp [checkMethod, required, literal, Method.ofName?_name]
  have urlValid : ∀ place, checkUrl place (some (.str address)) = .valid address := by
    intro place
    simp only [checkUrl, required, textWith, url, if_true]
  refine (closed_eq_valid (by decide)).mpr ⟨?_, known⟩
  simp only [urlFound, methodFound, headersFound, bodyFound, urlValid, methodValid, bodyValid,
    checkHeaders_wireHeaders]
  rfl

theorem checkScript_wire (place : Place) {code : Text} (rule : lengthFault? 1 none code = none) :
    checkScript place [("runtime", .str "node"), ("code", .str code)] = .valid code := by
  have runtimeFound : Entries.find? "runtime" [(("runtime" : Text), Json.str "node"),
      ("code", .str code)] = some (.str "node") := rfl
  have codeFound : Entries.find? "code" [(("runtime" : Text), Json.str "node"),
      ("code", .str code)] = some (.str code) := rfl
  refine (closed_eq_valid (by decide)).mpr ⟨?_, fun _ member => member⟩
  simp only [runtimeFound, codeFound, required, textWith, rule]
  rfl

theorem checkAction_wireAction {a : Action} (valid : ActionIsValid a) :
    checkAction (some (wireAction a)) = .valid a.normal := by
  cases a with
  | http r =>
    have request : checkAction (some (wireAction (.http r)))
        = checkKind "http" "HttpConfig" (fun p c => .http <$> checkRequest p c)
          [("type", .str "http"), ("config", .obj (wireRequest r))] := rfl
    rw [request]
    refine (closed_eq_valid (by decide)).mpr ⟨?_, fun _ member => member⟩
    exact map_eq_valid.mpr ⟨r.normal, checkRequest_wireRequest _ valid, rfl⟩
  | script code =>
    have script : checkAction (some (wireAction (.script code)))
        = checkKind "script" "ScriptConfig" (fun p c => .script <$> checkScript p c)
          [("type", .str "script"),
            ("config", .obj [("runtime", .str "node"), ("code", .str code)])] := rfl
    rw [script]
    refine (closed_eq_valid (by decide)).mpr ⟨?_, fun _ member => member⟩
    exact map_eq_valid.mpr ⟨code, checkScript_wire _ valid, rfl⟩

/-- The wire form of a spell that satisfies the rules passes the check. -/
theorem check_wire {s : Spell} (valid : s.IsValid) : check s.wire = .valid s.normal := by
  have id : checkId (some (.str s.id)) = .valid s.id := by
    simp only [checkId, required, textWith, valid.id, if_true]
  have name : checkName (some (.str s.name)) = .valid s.name := by
    simp only [checkName, required, textWith, valid.name]
  have description : checkDescription (some (.str s.description)) = .valid s.description := by
    simp only [checkDescription, required, textWith, valid.description]
  change Spell.mk <$> checkId (some (.str s.id)) <*> checkName (some (.str s.name))
    <*> checkDescription (some (.str s.description))
    <*> Checked.valid (wireSchema s.inputSchema)
    <*> Checked.valid (wireSchema s.outputSchema)
    <*> checkAction (some (wireAction s.action)) = _
  rw [id, name, description, checkAction_wireAction valid.action]
  rfl

/-! ### Normal forms -/

theorem normal_normal (s : Spell) : s.normal.normal = s.normal := by
  have action : s.action.normal.normal = s.action.normal := by
    cases s.action with
    | http r => cases r with
      | mk url method headers body =>
        cases headers <;> simp [Action.normal, HttpRequest.normal, Entries.mapKeys_mapKeys,
          Text.mend_mend]
    | script code => rfl
  simp only [normal, wireSchema_wireSchema, action]

theorem wireAction_normal (a : Action) : wireAction a.normal = wireAction a := by
  cases a with
  | http r =>
    have headers : r.normal.headers.map wireHeaders = r.headers.map wireHeaders := by
      rw [HttpRequest.normal]
      cases r.headers with
      | none => rfl
      | some headers =>
        simp only [Option.map_some, wireHeaders, Entries.mapKeys_mapKeys Text.mend_mend]
    rw [Action.normal, wireAction, wireAction, wireRequest, headers]
    rfl
  | script code => rfl

theorem normal_wire (s : Spell) : s.normal.wire = s.wire := by
  simp only [wire, normal, wireSchema_wireSchema, wireAction_normal]

theorem isShallow_normal {s : Spell} (shallow : s.isShallow = true) :
    s.normal.isShallow = true := by
  rw [isShallow, Bool.and_eq_true, decide_eq_true_eq, decide_eq_true_eq] at shallow ⊢
  exact ⟨(levels_wireSchema s.inputSchema).trans shallow.1,
    (levels_wireSchema s.outputSchema).trans shallow.2⟩

theorem isShallow_of_isWirable {s : Spell} (wirable : s.isWirable = true) : s.isShallow = true :=
  (Bool.and_eq_true _ _ ▸ wirable).1

theorem isWirable_normal {s : Spell} (wirable : s.isWirable = true) :
    s.normal.isWirable = true := by
  rw [isWirable, Bool.and_eq_true, List.all_eq_true, innerNames, List.forall_mem_append]
    at wirable ⊢
  exact ⟨isShallow_normal wirable.1, innerNames_wireSchema wirable.2.1,
    innerNames_wireSchema wirable.2.2⟩

/-- The normal form has the wire form of the spell. -/
theorem wire?_normal {s : Spell} {v : Json} (wired : s.wire? = .ok v) : s.normal.wire? = .ok v := by
  obtain ⟨wirable, rfl⟩ := wire?_eq_ok_iff.mp wired
  exact wire?_eq_ok_iff.mpr ⟨isWirable_normal wirable, (normal_wire s).symm⟩

theorem wireSchema_eq_self {schema : Members} (proper : (Json.obj schema).isProper = true)
    (bounded : (Json.obj schema).isFinite = true)
    (plain : ∀ key ∈ Entries.keys schema, key.isEncodable = true) : wireSchema schema = schema := by
  rw [Json.isProper, Bool.and_eq_true, decide_eq_true_eq] at proper
  rw [wireSchema, Json.finiteMembers_eq_self _ bounded]
  exact Entries.mapKeys_eq_self proper.1 fun key member => Text.mend_of_isEncodable (plain key member)

theorem action_normal_eq_self {a : Action} (distinct : (headerKeys a).Nodup)
    (plain : ∀ key ∈ headerKeys a, key.isEncodable = true) : a.normal = a := by
  cases a with
  | http r =>
    obtain ⟨url, method, headers, body⟩ := r
    cases headers with
    | none => rfl
    | some headers =>
      have same : Entries.mapKeys Text.mend headers = headers :=
        Entries.mapKeys_eq_self distinct fun key member =>
          Text.mend_of_isEncodable (plain key member)
      simp only [Action.normal, HttpRequest.normal, Option.map_some, same]
  | script code => rfl

/-- A spell that loses nothing on the wire is its own normal form. -/
theorem normal_eq_self {s : Spell} (proper : s.IsProper) (whole : s.isNormal = true) :
    s.normal = s := by
  rw [isNormal, isFinite, Bool.and_eq_true, Bool.and_eq_true, List.all_eq_true, outerNames,
    List.forall_mem_append, List.forall_mem_append] at whole
  obtain ⟨⟨input, output⟩, ⟨inputNames, outputNames⟩, headerNames⟩ := whole
  rw [normal, wireSchema_eq_self proper.input input inputNames,
    wireSchema_eq_self proper.output output outputNames,
    action_normal_eq_self proper.headers headerNames]

/-! ### What wire forms are like -/

theorem isProper_wireHeaders (headers : Entries Text) : (wireHeaders headers).isProper = true := by
  have distinct := Entries.nodup_keys_mapKeys (f := Text.mend) headers
  rw [wireHeaders_eq]
  generalize Entries.mapKeys Text.mend headers = headers at distinct
  have keys : Entries.keys (headers.map fun header => (header.1, Json.str header.2))
      = Entries.keys headers := by
    simp [Entries.keys, Function.comp_def]
  have texts : Json.isProperMembers (headers.map fun header => (header.1, Json.str header.2))
      = true := by
    simp [Json.isProperMembers_eq, Json.isProper]
  rw [Json.isProper, keys, texts, Bool.and_true, decide_eq_true_eq]
  exact distinct

theorem isProper_wireRequest (r : HttpRequest) : (Json.obj (wireRequest r)).isProper = true := by
  obtain ⟨url, method, headers, body⟩ := r
  cases headers with
  | none => cases body <;> rfl
  | some headers =>
    have proper : (wireHeaders headers).isProper = true := isProper_wireHeaders headers
    rw [Json.isProper, Bool.and_eq_true, decide_eq_true_eq]
    constructor
    · cases body with
      | none =>
        change List.Nodup [("url" : Text), "method", "headers"]
        decide
      | some body =>
        change List.Nodup [("url" : Text), "method", "headers", "body"]
        decide
    · cases body <;> simp [wireRequest, wireMember, Json.isProperMembers, Json.isProper, proper]

theorem isProper_wireAction (a : Action) : (wireAction a).isProper = true := by
  cases a with
  | script code => rfl
  | http r =>
    have proper := isProper_wireRequest r
    rw [wireAction, Json.isProper, Bool.and_eq_true, decide_eq_true_eq]
    constructor
    · change List.Nodup [("type" : Text), "config"]
      decide
    · simp only [Json.isProperMembers, proper]
      rfl

/-- No object in a wire form has a key twice. -/
theorem isProper_wire {s : Spell} (proper : s.IsProper) : s.wire.isProper = true := by
  have input := isProper_wireSchema proper.input
  have output := isProper_wireSchema proper.output
  rw [wire, Json.isProper, Bool.and_eq_true, decide_eq_true_eq]
  constructor
  · change List.Nodup [("id" : Text), "name", "description", "inputSchema", "outputSchema",
      "action"]
    decide
  · simp only [Json.isProperMembers, input, output, isProper_wireAction]
    rfl

theorem levels_wireHeaders (headers : Entries Text) : (wireHeaders headers).levels ≤ 2 := by
  rw [wireHeaders_eq]
  exact Json.levels_obj_le (List.forall_mem_map.mpr fun _ _ => Nat.le_refl 1)

theorem levels_wireRequest (r : HttpRequest) : (Json.obj (wireRequest r)).levels ≤ 3 := by
  refine Json.levels_obj_le fun m member => ?_
  simp only [wireRequest, wireMember, List.mem_append, Option.mem_toList, Option.map_eq_some_iff]
    at member
  rcases member with ((⟨v, url, rfl⟩ | ⟨v, method, rfl⟩) | ⟨v, ⟨headers, -, rfl⟩, rfl⟩) |
    ⟨v, ⟨body, -, rfl⟩, rfl⟩
  · obtain rfl := Option.some.inj url
    exact Nat.le_succ 1
  · obtain rfl := Option.some.inj method
    exact Nat.le_succ 1
  · exact levels_wireHeaders headers
  · exact Nat.le_succ 1

theorem levels_wireAction (a : Action) : (wireAction a).levels ≤ 4 := by
  cases a with
  | script code => exact Nat.le_succ 3
  | http r =>
    refine Json.levels_obj_le ?_
    simp only [List.forall_mem_cons]
    exact ⟨by decide, levels_wireRequest r, by simp⟩

/-- A wire form is hardly deeper than the schemas in it. -/
theorem levels_wire {s : Spell} (shallow : s.isShallow = true) :
    s.wire.levels ≤ wireDepth + 1 := by
  rw [isShallow, Bool.and_eq_true, decide_eq_true_eq, decide_eq_true_eq] at shallow
  have text : ∀ t, (Json.str t).levels ≤ wireDepth := fun t => (by decide : 1 ≤ wireDepth)
  have action : (wireAction s.action).levels ≤ wireDepth :=
    (levels_wireAction s.action).trans (by decide)
  refine Json.levels_obj_le ?_
  simp only [List.forall_mem_cons]
  exact ⟨text s.id, text s.name, text s.description,
    (levels_wireSchema s.inputSchema).trans shallow.1,
    (levels_wireSchema s.outputSchema).trans shallow.2, action, by simp⟩

/-- What is read back from a wire form is a checked spell again. -/
theorem IsChecked.normal {s : Spell} (checked : s.IsChecked) : s.normal.IsChecked :=
  ⟨s.wire, isProper_wire checked.rules.2, check_wire checked.rules.1⟩

/-- The integers of the normal form stay in the wire form. -/
theorem isWritable_of_wire {s : Spell} (writable : s.wire.isWritable = true) :
    s.normal.isWritable = true := by
  rw [isWritable, Bool.and_eq_true]
  exact ⟨Json.isWritable_member (m := ("inputSchema", .obj (wireSchema s.inputSchema))) writable
      (by simp),
    Json.isWritable_member (m := ("outputSchema", .obj (wireSchema s.outputSchema))) writable
      (by simp)⟩

end Spell

end Grimoire
