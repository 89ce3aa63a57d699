import Grimoire.Book.File
import Grimoire.Proofs.Act
import Grimoire.Proofs.Entries
import Grimoire.Proofs.Spell.Complaints
import Grimoire.Proofs.Spell.Wire

/-!
# The candidates that are accepted

A candidate describes a spell if its members are the fields of the spell and the fields keep to the
rules. A check gives a spell if the candidate describes it, and no other
(`Spell.check_eq_valid_iff`); otherwise it gives the complaints about the fields, of which there is
at least one (`Spell.check_compositional`). A key that cannot be encoded hides what is wrong with the
other keys beside it (`Spell.check_unreadable`).
-/

namespace Grimoire

/-! ## Descriptions -/

/-- Whether a value is given, or absent or null where there is none to give. -/
def Json.IsGiven : Option Json → Option Json → Prop
  | none, v => v = none ∨ v = some .null
  | some w, v => v = some w

/-- The object whose members are texts. -/
def Json.ofTexts (entries : Entries Text) : Json := .obj (entries.map fun e => (e.1, .str e.2))

/-- Whether a text can be encoded and has a length within limits. -/
structure Text.IsWithin (least : Nat) (greatest : Option Nat) (t : Text) : Prop where
  encodable : t.isEncodable = true
  long : least ≤ t.length
  short : ∀ n ∈ greatest, t.length ≤ n

/-- Whether a configuration describes a request. -/
structure HttpRequest.IsDescribed (r : HttpRequest) (config : Members) : Prop where
  url : Entries.find? "url" config = some (.str r.url)
  absolute : Url.isAbsolute r.url = true
  method : Entries.find? "method" config = some (.str r.method.name)
  headers : Json.IsGiven (r.headers.map Json.ofTexts) (Entries.find? "headers" config)
  body : Json.IsGiven (r.body.map Json.str) (Entries.find? "body" config)
  known : Entries.AreOf ["url", "method", "headers", "body"] config

/-- Whether a configuration describes a script. -/
structure Script.IsDescribed (source : Text) (config : Members) : Prop where
  runtime : Entries.find? "runtime" config = some (.str "node")
  code : Entries.find? "code" config = some (.str source)
  within : source.IsWithin 1 none
  known : Entries.AreOf ["runtime", "code"] config

/-- Whether a configuration describes an action. -/
def Action.IsConfigured : Action → Members → Prop
  | .http r => r.IsDescribed
  | .script code => Script.IsDescribed code

/-- Whether the members of an object describe an action. -/
def Action.IsDescribed (a : Action) (members : Members) : Prop :=
  Entries.find? "type" members = some (.str a.kind) ∧
    (∃ config, Entries.find? "config" members = some (.obj config) ∧ a.IsConfigured config) ∧
    Entries.AreOf ["type", "config"] members

namespace Spell

/-- Whether the members of an object describe a spell. -/
structure IsDescribed (s : Spell) (members : Members) : Prop where
  id : Entries.find? "id" members = some (.str s.id)
  uuid : isUuid s.id = true
  name : Entries.find? "name" members = some (.str s.name)
  nameWithin : s.name.IsWithin minNameLength (some maxNameLength)
  nameCodePoints : ∀ c ∈ s.name, isNameCodePoint c = true
  description : Entries.find? "description" members = some (.str s.description)
  descriptionWithin : s.description.IsWithin minDescriptionLength (some maxDescriptionLength)
  input : (schemaEntry "inputSchema" "input_schema" members).2 = some (.obj s.inputSchema)
  output : (schemaEntry "outputSchema" "output_schema" members).2 = some (.obj s.outputSchema)
  action : ∃ action, Entries.find? "action" members = some (.obj action) ∧
    s.action.IsDescribed action

/-- The keys that a check looks at. -/
def fieldKeys : List Text := ["id", "name", "description", "inputSchema", "input_schema",
  "outputSchema", "output_schema", "action"]

end Spell

/-! ## Checks that pass -/

namespace Checked

variable {α : Type}

theorem optional_eq_valid {rule : Json → Checked α} {wire : α → Json}
    (each : ∀ w a, rule w = valid a ↔ w = wire a) (other : ∀ a, wire a ≠ .null)
    {v : Option Json} {given : Option α} :
    optional rule v = valid given ↔ Json.IsGiven (given.map wire) v := by
  -- Null counts as absent; it is never what is written for a given value.
  have absent : ∀ v, v = none ∨ v = some .null →
      (valid none = valid given ↔ Json.IsGiven (given.map wire) v) := by
    intro v absent
    cases given with
    | none => exact ⟨fun _ => absent, fun _ => rfl⟩
    | some a =>
      refine ⟨fun same => absurd same (by simp), fun same => ?_⟩
      rcases absent with rfl | rfl
      · exact absurd same (by simp [Json.IsGiven])
      · exact absurd (Option.some.inj same).symm (other a)
  have present : ∀ w, w ≠ .null →
      (some <$> rule w = valid given ↔ Json.IsGiven (given.map wire) (some w)) := by
    intro w notNull
    rw [map_eq_valid]
    cases given with
    | none => simp [Json.IsGiven, notNull]
    | some a => simp [Json.IsGiven, each]
  cases v with
  | none => exact absent none (.inl rfl)
  | some w =>
    cases w with
    | null => exact absent _ (.inr rfl)
    | _ => exact present _ (by simp)

theorem text_eq_valid {place : Place} {v : Json} {t : Text} :
    text place v = valid t ↔ v = .str t := by
  cases v <;> simp [text, fail]

end Checked

namespace Spell

open Checked

theorem lengthFault?_eq_none_iff {least : Nat} {greatest : Option Nat} {t : Text} :
    lengthFault? least greatest t = none ↔ t.IsWithin least greatest := by
  constructor
  · intro passes
    unfold lengthFault? at passes
    split at passes
    · exact absurd passes (by simp)
    · next encodable =>
      split at passes
      · exact absurd passes (by simp)
      · next long =>
        refine ⟨by simpa using encodable, Nat.le_of_not_lt long, ?_⟩
        rintro n ⟨⟩
        by_contra greater
        exact absurd passes (by simp [Nat.lt_of_not_le greater])
  · rintro ⟨encodable, long, short⟩
    unfold lengthFault?
    rw [encodable, if_neg (by simp), if_neg (Nat.not_lt.mpr long)]
    cases greatest with
    | none => rfl
    | some n => exact if_neg (Nat.not_lt.mpr (short n rfl))

theorem nameFault?_eq_none_iff {t : Text} :
    nameFault? t = none ↔ t.IsWithin minNameLength (some maxNameLength) ∧
      ∀ c ∈ t, isNameCodePoint c = true := by
  rw [← lengthFault?_eq_none_iff, nameFault?]
  cases lengthFault? minNameLength (some maxNameLength) t with
  | some fault => simp
  | none => simp

/-- A rule that is a yes or no question passes the texts for which the answer is yes. -/
theorem required_textWith_eq_valid {place : Place} {test : Text → Option Fault} {v : Option Json}
    {t : Text} :
    required place (textWith place test) v = valid t ↔ v = some (.str t) ∧ test t = none := by
  rw [required_eq_valid]
  constructor
  · rintro ⟨w, rfl, rule⟩
    obtain ⟨rfl, passes⟩ := textWith_eq_valid.mp rule
    exact ⟨rfl, passes⟩
  · rintro ⟨rfl, passes⟩
    exact ⟨_, rfl, textWith_eq_valid.mpr ⟨rfl, passes⟩⟩

theorem checkSchema_eq_valid_iff {key other : Text} {members ms : Members} :
    checkSchema key other members = valid ms ↔
      (schemaEntry key other members).2 = some (.obj ms) := by
  rw [checkSchema, schemaEntry]
  cases Entries.find? key members with
  | some v => simp [required, object_eq_valid]
  | none =>
    cases Entries.find? other members with
    | some v => simp [object_eq_valid]
    | none => simp [required, fail]

theorem checkMethod_eq_valid {place : Place} {v : Option Json} {m : Method} :
    checkMethod place v = valid m ↔ v = some (.str m.name) := by
  rw [checkMethod, required_eq_valid]
  constructor
  · rintro ⟨w, rfl, rule⟩
    obtain ⟨t, rfl, found⟩ := literal_eq_valid.mp rule
    have named := List.find?_some found
    rw [of_decide_eq_true named]
  · rintro rfl
    exact ⟨_, rfl, literal_eq_valid.mpr ⟨_, rfl, Method.ofName?_name m⟩⟩

theorem checkRuntime_eq_valid {place : Place} {v : Option Json} {u : Unit} :
    checkRuntime place v = valid u ↔ v = some (.str "node") := by
  rw [checkRuntime, required_eq_valid]
  constructor
  · rintro ⟨w, rfl, rule⟩
    obtain ⟨t, rfl, found⟩ := literal_eq_valid.mp rule
    split at found
    · next node => rw [node]
    · exact absurd found (by simp)
  · rintro rfl
    exact ⟨_, rfl, literal_eq_valid.mpr ⟨_, rfl, if_pos rfl⟩⟩

theorem headers_eq_valid {place : Place} {members : Members} {headers : Entries Text} :
    members.foldr (fun (k, v) rest =>
      (fun t entries => (k, t) :: entries) <$> text (place ++ [.key k.mend]) v <*> rest) (valid [])
        = valid headers ↔ members = headers.map fun header => (header.1, Json.str header.2) := by
  induction members generalizing headers with
  | nil => cases headers <;> simp
  | cons member members ih =>
    obtain ⟨key, v⟩ := member
    rw [List.foldr_cons, seq_eq_valid]
    constructor
    · rintro ⟨_, rest, first, last, rfl⟩
      obtain ⟨t, valid, rfl⟩ := map_eq_valid.mp first
      rw [text_eq_valid.mp valid, ih.mp last]
      rfl
    · intro same
      cases headers with
      | nil => exact absurd same (by simp)
      | cons header headers =>
        obtain ⟨first, rest⟩ := List.cons.inj same
        obtain ⟨rfl, rfl⟩ := Prod.mk.inj first
        exact ⟨_, headers, map_eq_valid.mpr ⟨header.2, rfl, rfl⟩, ih.mpr rest, rfl⟩

theorem checkHeaders_eq_valid {place : Place} {v : Option Json} {headers : Option (Entries Text)} :
    checkHeaders place v = valid headers ↔ Json.IsGiven (headers.map Json.ofTexts) v := by
  refine optional_eq_valid (fun w headers => ?_) (fun _ => by simp [Json.ofTexts])
  cases w with
  | obj members => rw [Json.ofTexts, Json.obj.injEq]; exact headers_eq_valid
  | _ => simp [fail, Json.ofTexts]

theorem checkRequest_eq_valid {place : Place} {config : Members} {r : HttpRequest} :
    checkRequest place config = valid r ↔ r.IsDescribed config := by
  rw [checkRequest, closed_eq_valid (by decide)]
  simp only [seq_eq_valid, map_eq_valid, checkHeaders_eq_valid, checkMethod_eq_valid, checkUrl,
    required_textWith_eq_valid,
    optional_eq_valid (fun _ _ => text_eq_valid) (fun t => by simp : ∀ t, Json.str t ≠ .null)]
  constructor
  · rintro ⟨⟨_, body, ⟨_, headers, ⟨_, method, ⟨url, address, rfl⟩, named, rfl⟩, given, rfl⟩,
      sent, rfl⟩, known⟩
    exact ⟨address.1, by simpa using address.2, named, given, sent, known⟩
  · intro described
    exact ⟨⟨_, r.body, ⟨_, r.headers, ⟨_, r.method, ⟨r.url, ⟨described.url,
      by simp [described.absolute]⟩, rfl⟩, described.method, rfl⟩, described.headers, rfl⟩,
      described.body, rfl⟩, described.known⟩

theorem checkScript_eq_valid {place : Place} {config : Members} {code : Text} :
    checkScript place config = valid code ↔ Script.IsDescribed code config := by
  rw [checkScript, closed_eq_valid (by decide)]
  simp only [seq_eq_valid, map_eq_valid, checkRuntime_eq_valid, required_textWith_eq_valid,
    lengthFault?_eq_none_iff]
  constructor
  · rintro ⟨⟨_, code, ⟨_, runtime, rfl⟩, ⟨found, within⟩, rfl⟩, known⟩
    exact ⟨runtime, found, within, known⟩
  · intro described
    exact ⟨⟨_, code, ⟨(), described.runtime, rfl⟩, ⟨described.code, described.within⟩, rfl⟩,
      described.known⟩

theorem checkKind_eq_valid {kind : Text} {model : String} {rule : Place → Members → Checked Action}
    {members : Members} {a : Action} {configured : Members → Prop}
    (each : ∀ place config, rule place config = valid a ↔ configured config) :
    checkKind kind model rule members = valid a ↔
      (∃ config, Entries.find? "config" members = some (.obj config) ∧ configured config) ∧
        Entries.AreOf ["type", "config"] members := by
  rw [checkKind, closed_eq_valid (by decide), required_eq_valid]
  refine and_congr_left fun _ => ?_
  constructor
  · rintro ⟨w, found, ruled⟩
    cases w with
    | obj config => exact ⟨config, found, (each _ _).mp ruled⟩
    | _ => exact absurd ruled (by simp [fail])
  · rintro ⟨config, found, is⟩
    exact ⟨.obj config, found, (each _ _).mpr is⟩

theorem checkHttp_eq_valid {members : Members} {a : Action} :
    checkKind "http" "HttpConfig" (fun p c => .http <$> checkRequest p c) members = valid a ↔
      (∃ config, Entries.find? "config" members = some (.obj config) ∧
        a.kind = "http" ∧ a.IsConfigured config) ∧ Entries.AreOf ["type", "config"] members := by
  refine checkKind_eq_valid fun place config => ?_
  simp only [map_eq_valid, checkRequest_eq_valid]
  constructor
  · rintro ⟨r, described, rfl⟩
    exact ⟨rfl, described⟩
  · rintro ⟨kind, described⟩
    cases a with
    | http r => exact ⟨r, described, rfl⟩
    | script code => exact absurd kind (by simp [Action.kind, Text.ofString])

theorem checkCode_eq_valid {members : Members} {a : Action} :
    checkKind "script" "ScriptConfig" (fun p c => .script <$> checkScript p c) members = valid a ↔
      (∃ config, Entries.find? "config" members = some (.obj config) ∧
        a.kind = "script" ∧ a.IsConfigured config) ∧ Entries.AreOf ["type", "config"] members := by
  refine checkKind_eq_valid fun place config => ?_
  simp only [map_eq_valid, checkScript_eq_valid]
  constructor
  · rintro ⟨code, described, rfl⟩
    exact ⟨rfl, described⟩
  · rintro ⟨kind, described⟩
    cases a with
    | http r => exact absurd kind (by simp [Action.kind, Text.ofString])
    | script code => exact ⟨code, described, rfl⟩

theorem checkAction_eq_valid {v : Option Json} {a : Action} :
    checkAction v = valid a ↔ ∃ members, v = some (.obj members) ∧ a.IsDescribed members := by
  have kinds : a.kind = "http" ∨ a.kind = "script" := by cases a <;> simp [Action.kind]
  rw [checkAction, required_eq_valid]
  constructor
  · rintro ⟨w, rfl, rule⟩
    cases w with
    | obj members =>
      refine ⟨members, rfl, ?_⟩
      dsimp only at rule
      split at rule
      · exact absurd rule (by simp [fail])
      · next kind found =>
        split at rule
        · next http =>
          obtain ⟨⟨config, given, is, configured⟩, known⟩ := checkHttp_eq_valid.mp rule
          exact ⟨by rw [found, http, is], ⟨config, given, configured⟩, known⟩
        · split at rule
          · next script =>
            obtain ⟨⟨config, given, is, configured⟩, known⟩ := checkCode_eq_valid.mp rule
            exact ⟨by rw [found, script, is], ⟨config, given, configured⟩, known⟩
          · exact absurd rule (by simp [fail])
    | _ => exact absurd rule (by simp [fail])
  · rintro ⟨members, rfl, found, ⟨config, given, configured⟩, known⟩
    refine ⟨_, rfl, ?_⟩
    dsimp only
    rw [found]
    dsimp only
    rcases kinds with is | is
    · rw [if_pos (by rw [is])]
      exact checkHttp_eq_valid.mpr ⟨⟨config, given, is, configured⟩, known⟩
    · have other : ¬Json.str a.kind = .str "http" := by
        rw [is]
        decide
      rw [if_neg other, if_pos (by rw [is])]
      exact checkCode_eq_valid.mpr ⟨⟨config, given, is, configured⟩, known⟩

/-- A check gives the spell that the members of an object describe, and no other. -/
theorem check_eq_valid_iff {members : Members} {s : Spell} :
    check (.obj members) = .valid s ↔ s.IsDescribed members := by
  have uuid : ∀ t, (if isUuid t then none else some Fault.notUuid) = none ↔ isUuid t = true := by
    intro t
    simp
  rw [check, checkId, checkName, checkDescription]
  simp only [seq_eq_valid, map_eq_valid, required_textWith_eq_valid, uuid, nameFault?_eq_none_iff,
    descriptionFault?, lengthFault?_eq_none_iff, checkSchema_eq_valid_iff, checkAction_eq_valid]
  constructor
  · rintro ⟨_, _, ⟨_, _, ⟨_, _, ⟨_, _, ⟨_, _, ⟨_, id, rfl⟩, name, rfl⟩, description, rfl⟩, input,
      rfl⟩, output, rfl⟩, action, rfl⟩
    exact ⟨id.1, id.2, name.1, name.2.1, name.2.2, description.1, description.2, input, output,
      action⟩
  · intro d
    exact ⟨_, s.action, ⟨_, s.outputSchema, ⟨_, s.inputSchema, ⟨_, s.description, ⟨_, s.name,
      ⟨s.id, ⟨d.id, d.uuid⟩, rfl⟩, ⟨d.name, d.nameWithin, d.nameCodePoints⟩, rfl⟩,
      ⟨d.description, d.descriptionWithin⟩, rfl⟩, d.input, rfl⟩, d.output, rfl⟩, d.action, rfl⟩

/-! ## All candidates -/

/-- Members under keys that a check does not look at do not matter. -/
theorem check_filter (members : Members) :
    check (.obj (members.filter fun m => fieldKeys.contains m.1)) = check (.obj members) := by
  have kept : ∀ key ∈ fieldKeys,
      Entries.find? key (members.filter fun m => fieldKeys.contains m.1)
        = Entries.find? key members :=
    fun key known => Entries.find?_filter (List.contains_iff_mem.mpr known) members
  simp only [fieldKeys, List.forall_mem_cons] at kept
  simp only [check, checkSchema, fieldKeys, kept]

/-- A candidate is either accepted or has complaints. -/
theorem valid_or_complaints {α : Type} (x : Checked α) :
    (∃ a, x = .valid a ∧ complaints x = []) ∨ (x.value? = none ∧ complaints x ≠ []) := by
  cases x with
  | valid a => exact .inl ⟨a, rfl, rfl⟩
  | invalid first rest => exact .inr ⟨rfl, List.cons_ne_nil _ _⟩

/-- A request to check a candidate gives a spell or fails with the problems of the candidate. -/
theorem run_check (v : Json) (env : Env) (s : State) :
    (∃ new, check v = .valid new ∧ (Book.check v).run env s = (.ok new, s)) ∨
      ∃ failure t, (Book.check v).run env s = (.error failure, t) ∧
        failure.problems = (check v).problems ∧ failure.problems ≠ [] := by
  rw [Book.check]
  cases check v with
  | valid new => exact .inl ⟨new, rfl, rfl⟩
  | invalid first rest => exact .inr ⟨.invalid first rest, _, rfl, rfl, List.cons_ne_nil _ _⟩

/-- An action whose configuration has an address that is no text, no method, and a key that cannot be
encoded. -/
def unreadable : Json := .obj [("action", .obj [("type", .str "http"),
  ("config", .obj [("url", .int 5), (Text.loneSurrogate, .int 1)])])]

end Spell

end Grimoire
