import Grimoire.Proofs.Entries
import Grimoire.Proofs.Segments
import Grimoire.Proofs.Spell.NormalForm
import Grimoire.Spell.Warning

/-!
# Warnings about placeholders

The keys of the placeholders of a request are found by a scan of their own, and each is told once
(`HttpRequest.isFirstSeen_placeholders`). There is a warning for each of them that the input schema
does not declare, in the order in which they first come (`Spell.undeclared_exact`). Whether there
are warnings at all, and which keys count as declared, depends on what stands under `properties`
(`Spell.warnings_exact`). In a number or in true no key can be looked for, and a key may be found in
a text or an array, where nothing is declared (`Spell.warnings_strayed`).
-/

namespace Grimoire

/-! ## The keys of a request -/

/-- The key of a part that is a placeholder. -/
def Segment.key? : Segment → Option Text
  | literal _ => none
  | placeholder key => some key

namespace Template

/-- The keys of the placeholders among the parts of a template, in order. -/
def partKeys (t : Text) : List Text := (segments t).filterMap Segment.key?

theorem keys_placeholder {c : CodePoint} {s key rest : Text}
    (found : placeholder? (c :: s) = some (key, rest)) : keys (c :: s) = key :: keys rest := by
  rw [keys]
  split
  · next found' =>
    obtain ⟨rfl, rfl⟩ := Prod.mk.inj (Option.some.inj (found'.symm.trans found))
    rfl
  · next absent => exact absurd (absent.symm.trans found) (by simp)

theorem keys_literal {c : CodePoint} {s : Text} (absent : placeholder? (c :: s) = none) :
    keys (c :: s) = keys s := by
  rw [keys]
  split
  · next found => exact absurd (found.symm.trans absent) (by simp)
  · rfl

theorem filterMap_key?_addFront (c : CodePoint) (parts : List Segment) :
    (addFront c parts).filterMap Segment.key? = parts.filterMap Segment.key? := by
  unfold addFront
  split <;> simp [List.filterMap_cons, Segment.key?]

theorem filterMap_key?_go (t : Text) : (segments.go [] t).filterMap Segment.key? = keys t := by
  match t with
  | [] =>
    rw [segments.go, keys]
    rfl
  | c :: s =>
    cases found : placeholder? (c :: s) with
    | some p =>
      obtain ⟨key, rest⟩ := p
      rw [go_placeholder [] found, keys_placeholder found, ← filterMap_key?_go rest]
      rfl
    | none =>
      rw [go_cons found, filterMap_key?_addFront, keys_literal found, filterMap_key?_go s]
termination_by t.length
decreasing_by
  · exact Nat.lt_succ_self _
  · exact placeholder?_length_lt found

/-- The scan for keys finds the placeholders among the parts, and no other ones. -/
theorem keys_eq_partKeys (t : Text) : keys t = partKeys t := by
  cases t with
  | nil =>
    rw [partKeys, segments_nil, keys]
    rfl
  | cons c t => rw [partKeys, segments_cons, filterMap_key?_go]

theorem ne_nil_of_mem_keys {t key : Text} (member : key ∈ keys t) : key ≠ [] := by
  rw [keys_eq_partKeys, partKeys, List.mem_filterMap] at member
  obtain ⟨part, inside, same⟩ := member
  cases part with
  | literal u => exact absurd same (by simp [Segment.key?])
  | placeholder own =>
    obtain rfl := Option.some.inj same
    exact ((isDecomposition_segments t).keys own inside).1

end Template

namespace HttpRequest

/-- The keys of the placeholders of a request as often as they come: first those of the address, then
those of each header value, last those of the body, whether it is sent or not. -/
def occurrences (r : HttpRequest) : List Text :=
  Template.partKeys r.url ++ r.headerEntries.values.flatMap Template.partKeys
    ++ (r.body.map Template.partKeys).getD []

theorem flatMap_keys (r : HttpRequest) :
    (r.url :: r.headerEntries.values ++ [r.body.getD []]).flatMap Template.keys
      = r.occurrences := by
  have scan : Template.keys = Template.partKeys := funext Template.keys_eq_partKeys
  have body : Template.partKeys (r.body.getD []) = (r.body.map Template.partKeys).getD [] := by
    cases r.body with
    | none => rw [Option.getD_none, ← scan, Template.keys]; rfl
    | some t => rfl
  rw [scan, occurrences, List.flatMap_append, List.flatMap_cons, List.flatMap_singleton, body]

/-- Each key of a request is told once, in the order in which they first come. -/
theorem isFirstSeen_placeholders (r : HttpRequest) : IsFirstSeen r.placeholders r.occurrences := by
  have seen := Entries.isFirstSeen_keys_putAll (r.occurrences.map fun key => (key, ()))
  have keys : Entries.keys (r.occurrences.map fun key => (key, ())) = r.occurrences := by
    simp [Entries.keys, Function.comp_def]
  rw [keys] at seen
  rw [placeholders, flatMap_keys]
  exact seen

theorem ne_nil_of_mem_placeholders {r : HttpRequest} {key : Text} (member : key ∈ r.placeholders) :
    key ≠ [] := by
  rw [r.isFirstSeen_placeholders.mem_iff, ← flatMap_keys, List.mem_flatMap] at member
  obtain ⟨t, -, inside⟩ := member
  exact Template.ne_nil_of_mem_keys inside

end HttpRequest

/-! ## What declares a key -/

theorem Text.hasInfix_iff {part t : Text} : Text.hasInfix part t = true ↔ part <:+: t := by
  induction t with
  | nil => simp [Text.hasInfix, List.isEmpty_iff]
  | cons c t ih => rw [Text.hasInfix, Bool.or_eq_true, ih, List.isPrefixOf_iff_prefix,
      List.infix_cons_iff]

/-- Whether a key is found in a value: among the keys of an object, among the items of an array, or
as a part of a text. -/
inductive Json.Shows : Json → Text → Prop
  | member {members : Members} {key : Text} : key ∈ members.keys → Shows (.obj members) key
  | item {items : List Json} {key : Text} : .str key ∈ items → Shows (.arr items) key
  | part {t key : Text} : key <:+: t → Shows (.str t) key

/-- Whether a value is one of a kind in which no key can be looked for. -/
inductive Json.IsUnsearchable : Json → Text → Prop
  | bool : IsUnsearchable (.bool true) "bool"
  | int {n : Int} : n ≠ 0 → IsUnsearchable (.int n) "int"
  | float {x : Binary64} : x.isZero = false → IsUnsearchable (.float x) "float"

namespace Json

theorem IsUnsearchable.unique {v : Json} {kind kind' : Text} (first : v.IsUnsearchable kind)
    (second : v.IsUnsearchable kind') : kind = kind' := by
  cases first <;> cases second <;> rfl

variable {key : Text} {members : Members} {items : List Json} {t : Text}

@[simp]
theorem shows_obj : (obj members).Shows key ↔ key ∈ members.keys :=
  ⟨fun h => by cases h with | member h => exact h, .member⟩

@[simp]
theorem shows_arr : (arr items).Shows key ↔ .str key ∈ items :=
  ⟨fun h => by cases h with | item h => exact h, .item⟩

@[simp]
theorem shows_str : (str t).Shows key ↔ key <:+: t :=
  ⟨fun h => by cases h with | part h => exact h, .part⟩

instance (v : Json) (key : Text) : Decidable (v.Shows key) :=
  match v with
  | .obj members => decidable_of_iff (Entries.hasKey key members = true)
      (Entries.hasKey_iff.trans shows_obj.symm)
  | .arr items => decidable_of_iff (items.contains (.str key) = true)
      (List.contains_iff_mem.trans shows_arr.symm)
  | .str t => decidable_of_iff (Text.hasInfix key t = true)
      (Text.hasInfix_iff.trans shows_str.symm)
  | .null | .bool _ | .int _ | .float _ => isFalse fun h => nomatch h

end Json

namespace Spell

variable {v : Json} {key kind : Text} {keys : List Text}

theorem declares_unsearchable (unsearchable : v.IsUnsearchable kind) (key : Text) :
    declares v key = .error (.notSearchable kind) := by
  cases unsearchable with
  | bool => rfl
  | int other => exact if_neg (by simp [isNothing, other])
  | float other => exact if_neg (by simp [isNothing, other])

/-- What is nothing has no keys, no items and no parts but the empty one. -/
theorem not_shows_of_isNothing (nothing : isNothing v = true) (filled : key ≠ []) :
    ¬v.Shows key := by
  intro shows
  cases shows with
  | @member members _ member =>
    cases members with
    | nil => exact absurd member List.not_mem_nil
    | cons m members => exact absurd nothing (by simp [isNothing])
  | @item items _ member =>
    cases items with
    | nil => exact absurd member List.not_mem_nil
    | cons item items => exact absurd nothing (by simp [isNothing])
  | @part t _ part =>
    cases t with
    | nil => exact filled (List.infix_nil.mp part)
    | cons c t => exact absurd nothing (by simp [isNothing])

theorem declares_searchable (searchable : ∀ kind, ¬v.IsUnsearchable kind) (filled : key ≠ []) :
    declares v key = .ok (decide (v.Shows key)) := by
  cases something : isNothing v with
  | true =>
    rw [decide_eq_false (not_shows_of_isNothing something filled)]
    exact if_pos something
  | false =>
    have asked : ¬isNothing v = true := by simp [something]
    cases v with
    | null => exact absurd something (by decide)
    | bool b =>
      cases b with
      | false => exact absurd something (by decide)
      | true => exact absurd .bool (searchable _)
    | int n =>
      refine absurd (.int ?_) (searchable _)
      rintro rfl
      exact absurd something (by decide)
    | float x => exact absurd (.float something) (searchable _)
    | str t =>
      rw [declares, if_neg asked]
      exact congrArg Except.ok (Bool.eq_iff_iff.mpr (by simp [Text.hasInfix_iff]))
    | arr items =>
      rw [declares, if_neg asked]
      exact congrArg Except.ok (Bool.eq_iff_iff.mpr (by simp))
    | obj members =>
      rw [declares, if_neg asked]
      exact congrArg Except.ok (Bool.eq_iff_iff.mpr (by simp [Entries.hasKey_iff]))

/-! ## The warnings -/

theorem undeclaredWarnings_unsearchable (unsearchable : v.IsUnsearchable kind) (nonempty : keys ≠ []) :
    undeclaredWarnings v keys = .error (.notSearchable kind) := by
  obtain ⟨key, keys, rfl⟩ := List.exists_cons_of_ne_nil nonempty
  rw [undeclaredWarnings, declares_unsearchable unsearchable]

/-- If keys can be looked for, each that is not found is told in its place. -/
theorem undeclaredWarnings_searchable (searchable : ∀ kind, ¬v.IsUnsearchable kind)
    (filled : ∀ key ∈ keys, key ≠ []) : undeclaredWarnings v keys
      = .ok ((keys.filter fun key => ¬v.Shows key).map .undeclared) := by
  induction keys with
  | nil => rfl
  | cons key keys ih =>
    rw [List.forall_mem_cons] at filled
    rw [undeclaredWarnings, declares_searchable searchable filled.1, ih filled.2, List.filter_cons]
    by_cases shows : v.Shows key <;> simp [shows]

variable {s : Spell} {r : HttpRequest}

/-- The keys that warnings tell to be not declared, in order. -/
def undeclaredKeys (warnings : List Warning) : List Text := warnings.filterMap fun
  | .undeclared key => some key
  | _ => none

/-- What stands under `properties` in the input schema, null if nothing does. -/
def properties (s : Spell) : Json := (Entries.find? "properties" s.inputSchema).getD .null

theorem undeclaredKeys_append (front back : List Warning) :
    undeclaredKeys (front ++ back) = undeclaredKeys front ++ undeclaredKeys back :=
  List.filterMap_append

theorem undeclaredKeys_map (keys : List Text) : undeclaredKeys (keys.map .undeclared) = keys := by
  rw [undeclaredKeys, List.filterMap_map]
  exact List.filterMap_some

theorem undeclaredKeys_schemaWarnings (label : Text) (schema : Members) :
    undeclaredKeys (schemaWarnings label schema) = [] := by
  rw [schemaWarnings]
  cases Schema.fault (.obj schema) <;> rfl

/-- The warnings about other things than placeholders. -/
def generalWarnings (s : Spell) : List Warning :=
  schemaWarnings "inputSchema" s.inputSchema ++ schemaWarnings "outputSchema" s.outputSchema
    ++ (if Entries.find? "type" s.inputSchema = some (.str "object") then [] else [.inputNotObject])
    ++ match s.action with
      | .http r =>
        if r.body.isSome && !r.method.sendsBody then [.bodyIgnored r.method] else []
      | .script _ => []

theorem undeclaredKeys_generalWarnings (s : Spell) : undeclaredKeys s.generalWarnings = [] := by
  have choice {p : Prop} [Decidable p] {front back : List Warning} (none : undeclaredKeys front = [])
      (none' : undeclaredKeys back = []) : undeclaredKeys (if p then front else back) = [] := by
    split <;> assumption
  rw [generalWarnings]
  simp only [undeclaredKeys_append, undeclaredKeys_schemaWarnings, List.nil_append]
  rw [choice rfl rfl, List.nil_append]
  cases s.action with
  | http r => exact choice rfl rfl
  | script code => rfl

theorem warnings_http (http : s.action = .http r) : s.warnings
    = (s.generalWarnings ++ ·) <$> undeclaredWarnings s.properties r.placeholders := by
  rw [warnings, generalWarnings, http, actionWarnings, properties]
  cases undeclaredWarnings ((Entries.find? "properties" s.inputSchema).getD .null)
    r.placeholders with
  | error failure => rfl
  | ok told => exact congrArg Except.ok (List.append_assoc ..).symm

theorem warnings_script {code : Text} (script : s.action = .script code) :
    s.warnings = .ok s.generalWarnings := by
  rw [warnings, generalWarnings, script, actionWarnings]
  rfl

theorem warnings_unsearchable (http : s.action = .http r) (some : r.placeholders ≠ [])
    (unsearchable : s.properties.IsUnsearchable kind) :
    s.warnings = .error (.notSearchable kind) := by
  rw [warnings_http http, undeclaredWarnings_unsearchable unsearchable some]
  rfl

theorem warnings_searchable (http : s.action = .http r)
    (searchable : r.placeholders = [] ∨ ∀ kind, ¬s.properties.IsUnsearchable kind) :
    s.warnings = .ok (s.generalWarnings
      ++ (r.placeholders.filter fun key => ¬s.properties.Shows key).map .undeclared) := by
  rw [warnings_http http]
  rcases searchable with none | searchable
  · rw [none]
    rfl
  · rw [undeclaredWarnings_searchable searchable fun _ => HttpRequest.ne_nil_of_mem_placeholders]
    rfl

/-- There is a list of warnings unless the request has a placeholder and no key can be looked for in
what stands under `properties`, which is a number other than zero or the truth value true. A key
counts as declared where it is found: among the keys of an object, but among the items of an array
and as a part of a text as well. -/
theorem warnings_exact (s : Spell) :
    (∀ failure, s.warnings = .error failure ↔ ∃ r kind, s.action = .http r ∧ r.placeholders ≠ [] ∧
      s.properties.IsUnsearchable kind ∧ failure = .notSearchable kind) ∧
    ∀ warnings r, s.warnings = .ok warnings → s.action = .http r →
      undeclaredKeys warnings = r.placeholders.filter fun key => ¬s.properties.Shows key := by
  cases action : s.action with
  | script code =>
    rw [warnings_script action]
    simp
  | http r =>
    by_cases searchable : r.placeholders = [] ∨ ∀ kind, ¬s.properties.IsUnsearchable kind
    · rw [warnings_searchable action searchable]
      refine ⟨fun failure => ⟨fun h => absurd h (by simp), ?_⟩, ?_⟩
      · rintro ⟨r', kind, same, some, unsearchable, -⟩
        obtain rfl := Action.http.inj same
        exact absurd unsearchable (searchable.resolve_left some kind)
      · rintro warnings r' listed same
        obtain rfl := Action.http.inj same
        rw [← Except.ok.inj listed, undeclaredKeys_append, undeclaredKeys_generalWarnings,
          undeclaredKeys_map, List.nil_append]
    · rw [not_or, not_forall] at searchable
      obtain ⟨some, kind, unsearchable⟩ := searchable
      rw [not_not] at unsearchable
      rw [warnings_unsearchable action some unsearchable]
      refine ⟨fun failure => ⟨fun same => ?_, ?_⟩, fun _ _ h => absurd h (by simp)⟩
      · exact ⟨r, kind, rfl, some, unsearchable, (Except.error.inj same).symm⟩
      · rintro ⟨r', kind', -, -, unsearchable', rfl⟩
        rw [unsearchable.unique unsearchable']

/-- A spell with a request that has placeholders, and with a value under `properties`. -/
def withProperties (v : Json) : Spell :=
  { loose with
    inputSchema := [("type", .str "object"), ("properties", v)]
    action := .http ⟨"https://a.test/\x7b\x7bkey\x7d\x7d", .get, none, none⟩ }

/-- A spell that is accepted may have no list of warnings, or one without a placeholder that nothing
declares. -/
theorem warnings_strayed :
    ((check (withProperties (.int 5)).wire).value? = some (withProperties (.int 5)) ∧
      (withProperties (.int 5)).warnings = .error (.notSearchable "int")) ∧
    ((check (withProperties (.str "monkey")).wire).value? = some (withProperties (.str "monkey")) ∧
      ∀ warnings, (withProperties (.str "monkey")).warnings = .ok warnings →
        undeclaredKeys warnings = []) := by
  refine ⟨⟨by decide +kernel, warnings_unsearchable rfl (by decide +kernel) (.int (by decide))⟩,
    by decide +kernel, fun warnings listed => ?_⟩
  have searchable (kind : Text) : ¬(Json.str "monkey").IsUnsearchable kind := fun h => nomatch h
  rw [warnings_searchable (s := withProperties (.str "monkey")) rfl (.inr searchable)] at listed
  rw [← Except.ok.inj listed]
  decide +kernel

/-- Whether the keys of an object are declared: it stands under `properties`, or it is empty and
nothing or null stands there. -/
def Declares (s : Spell) (members : Members) : Prop :=
  s.properties = .obj members ∨ s.properties = .null ∧ members = []

theorem Declares.searchable {members : Members} (declares : s.Declares members) (kind : Text) :
    ¬s.properties.IsUnsearchable kind := by
  rcases declares with object | ⟨null, -⟩
  · rw [object]
    exact fun h => nomatch h
  · rw [null]
    exact fun h => nomatch h

theorem Declares.shows_iff {members : Members} (declares : s.Declares members) :
    s.properties.Shows key ↔ key ∈ members.keys := by
  rcases declares with object | ⟨null, rfl⟩
  · rw [object, Json.shows_obj]
  · rw [null]
    exact ⟨fun h => (nomatch h), fun h => absurd h List.not_mem_nil⟩

/-- The keys of a request are told each once, in the order in which they first come: in the address,
in the header values, in the body, whether it is sent or not. If the input schema has an object or
null under `properties`, or nothing, there is a warning for each key that is no key of this object,
in the same order, and for no other one. A script has no such warnings. -/
theorem undeclared_exact (s : Spell) :
    (∀ r, s.action = .http r →
      (r.placeholders.Nodup ∧ IsFirstSeen r.placeholders r.occurrences) ∧
      ∀ members, s.Declares members → ∃ warnings, s.warnings = .ok warnings ∧
        (undeclaredKeys warnings).Nodup ∧ IsFirstSeen (undeclaredKeys warnings)
          (r.occurrences.filter fun key => key ∉ members.keys)) ∧
    ∀ code, s.action = .script code →
      ∃ warnings, s.warnings = .ok warnings ∧ undeclaredKeys warnings = [] := by
  refine ⟨fun r http => ?_, fun code script =>
    ⟨_, warnings_script script, undeclaredKeys_generalWarnings s⟩⟩
  have seen := r.isFirstSeen_placeholders
  refine ⟨⟨seen.nodup, seen⟩, fun members declares =>
    ⟨_, warnings_searchable http (.inr declares.searchable), ?_⟩⟩
  rw [undeclaredKeys_append, undeclaredKeys_generalWarnings, undeclaredKeys_map, List.nil_append]
  simp only [declares.shows_iff]
  have left := seen.filter fun key => key ∉ members.keys
  exact ⟨left.nodup, left⟩

/-- A request with placeholders among other braces, twice in its texts and in a body that is not
sent. -/
def braced : HttpRequest :=
  ⟨"https://a.test/\x7b\x7b\x7bb\x7d\x7d\x7d?\x7b\x7ba\x7d\x7d", .get,
    some [("X-First", "\x7b\x7ba\x7d\x7d, \x7b\x7bc\x7d\x7d"), ("X-Last", "\x7b\x7b\x7d\x7d")],
    some "\x7b\x7ba\x7b\x7bd\x7d\x7d\x7b\x7bb\x7d\x7d"⟩

theorem undeclared_exact_braced :
    let s : Spell := { withProperties (.obj [("c", .null)]) with action := .http braced }
    s.Declares [("c", .null)] ∧ ∃ warnings, s.warnings = .ok warnings ∧
      IsFirstSeen (undeclaredKeys warnings) (["b", "a", "a", "d", "b"] : List Text) := by
  intro s
  have declares : s.Declares [("c", .null)] := .inl rfl
  have occurrences : (braced.occurrences.filter fun key =>
      key ∉ Entries.keys [(("c" : Text), Json.null)]) = (["b", "a", "a", "d", "b"] : List Text) := by
    decide +kernel
  obtain ⟨warnings, listed, -, seen⟩ := ((undeclared_exact s).1 braced rfl).2 _ declares
  exact ⟨declares, warnings, listed, occurrences ▸ seen⟩

end Spell

end Grimoire
