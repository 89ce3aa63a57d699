import Grimoire.Spell.Check

/-!
# The complaints about a candidate

The complaints about an object are those about its fields, in the order of the fields, and the
complaints about a field follow from the value of that field or its absence alone
(`Spell.complaints_obj`). In an action whose kind is known, those about the configuration come
first, then those about keys that are not permitted. A key that cannot be encoded is the only
complaint about the configuration, or the action, that it stands in.
-/

namespace Grimoire

/-! ## Rules in words -/

/-- The complaint about a fault at a path. -/
def Fault.at (fault : Fault) (path : Text) : Complaint := ⟨path, fault.message, fault.code⟩

namespace Complaint

/-- The complaints about a value that has to be there. -/
def ofNeeded (path : Text) (fault? : Json → Option Fault) : Option Json → List Complaint
  | none => [Fault.missing.at path]
  | some v => ((fault? v).map fun fault => fault.at path).toList

/-- The complaints about a value that may be absent or null. -/
def ofOptional (complaints : Json → List Complaint) : Option Json → List Complaint
  | none | some .null => []
  | some v => complaints v

/-- One complaint for each key that is not known, in the order of the members. -/
def ofUnknown (path : Text) (known : List Text) (members : Members) : List Complaint :=
  ((Entries.keys members).filter fun key => !known.contains key).map fun key =>
    Fault.notPermitted.at (path ++ "." ++ key)

/-- The complaints about a model that has known keys only: those about its fields and then those about
other keys, or a single one if some key cannot be encoded. -/
def ofClosed (path : Text) (known : List Text) (members : Members) (fields : List Complaint) :
    List Complaint :=
  if (Entries.keys members).all Text.isEncodable then fields ++ ofUnknown path known members
  else [Fault.notUnicode.at path]

/-- What is wrong with a value that has to be a text without a fault. -/
def textFault? (test : Text → Option Fault) : Json → Option Fault
  | .str t => test t
  | _ => some .notString

/-- What is wrong with a value that has to be an object. -/
def objectFault? : Json → Option Fault
  | .obj _ => none
  | _ => some .notObject

/-- What is wrong with a value that has to be one of some texts. -/
def choiceFault? (choices : List Text) (fault : Fault) : Json → Option Fault
  | .str t =>
    if t ∈ choices then none else some (if t.isEncodable then fault else .notUnicode)
  | _ => some fault

end Complaint

namespace Spell

open Complaint Checked

/-- The key under which a schema stands, and its value: the second key counts only if the first one
is absent and the second one is not. -/
def schemaEntry (key other : Text) (candidate : Members) : Text × Option Json :=
  match Entries.find? key candidate, Entries.find? other candidate with
  | none, some v => (other, some v)
  | v, _ => (key, v)

/-- The complaints about a schema. -/
def schemaComplaints (entry : Text × Option Json) : List Complaint :=
  ofNeeded entry.1 objectFault? entry.2

/-- The complaints about headers: one for each value that is no text, in order. -/
def headersComplaints : Json → List Complaint
  | .obj members => members.flatMap fun (key, v) =>
    ofNeeded ("action.config.headers." ++ key.mend) (textFault? fun _ => none) (some v)
  | _ => [Fault.notObject.at "action.config.headers"]

/-- The complaints about the configuration of a request. -/
def requestComplaints (config : Members) : List Complaint :=
  ofClosed "action.config" ["url", "method", "headers", "body"] config <|
    ofNeeded "action.config.url"
        (textFault? fun t => if Url.isAbsolute t then none else some .notUrl)
        (Entries.find? "url" config)
      ++ ofNeeded "action.config.method"
        (choiceFault? ["GET", "POST", "PUT", "PATCH", "DELETE"] .unknownMethod)
        (Entries.find? "method" config)
      ++ ofOptional headersComplaints (Entries.find? "headers" config)
      ++ ofOptional (fun v => ofNeeded "action.config.body" (textFault? fun _ => none) (some v))
        (Entries.find? "body" config)

/-- The complaints about the configuration of a script. -/
def scriptComplaints (config : Members) : List Complaint :=
  ofClosed "action.config" ["runtime", "code"] config <|
    ofNeeded "action.config.runtime" (choiceFault? ["node"] .unknownRuntime)
        (Entries.find? "runtime" config)
      ++ ofNeeded "action.config.code" (textFault? (lengthFault? 1 none))
        (Entries.find? "code" config)

/-- The complaints about an action of a known kind. -/
def kindComplaints (model : String) (complaints : Members → List Complaint) (action : Members) :
    List Complaint :=
  ofClosed "action" ["type", "config"] action <|
    match Entries.find? "config" action with
    | none => [Fault.missing.at "action.config"]
    | some (.obj config) => complaints config
    | some _ => [(Fault.notConfig model).at "action.config"]

/-- The complaints about an action. -/
def actionComplaints : Option Json → List Complaint
  | none => [Fault.missing.at "action"]
  | some (.obj action) =>
    match Entries.find? "type" action with
    | none => [Fault.noKind.at "action"]
    | some kind =>
      if kind = .str "http" then kindComplaints "HttpConfig" requestComplaints action
      else if kind = .str "script" then kindComplaints "ScriptConfig" scriptComplaints action
      else [(Fault.unknownKind kind.describeBare.mend).at "action"]
  | some _ => [Fault.notAction.at "action"]

/-- The complaints about the fields of a candidate. -/
def fieldComplaints (candidate : Members) : List Complaint :=
  ofNeeded "id" (textFault? fun t => if isUuid t then none else some .notUuid)
      (Entries.find? "id" candidate)
    ++ ofNeeded "name" (textFault? nameFault?) (Entries.find? "name" candidate)
    ++ ofNeeded "description" (textFault? descriptionFault?)
      (Entries.find? "description" candidate)
    ++ schemaComplaints (schemaEntry "inputSchema" "input_schema" candidate)
    ++ schemaComplaints (schemaEntry "outputSchema" "output_schema" candidate)
    ++ actionComplaints (Entries.find? "action" candidate)

end Spell

/-! ## Paths -/

/-- The kind of an action has no part in a path. -/
theorem Place.text_action {kind : Text} (known : kind = "http" ∨ kind = "script")
    (keys : List Text) :
    Place.text (.key "action" :: .key kind :: keys.map Step.key)
      = Text.join "." ("action" :: keys) := by
  have steps : keys.map (Step.text ∘ Step.key) = keys := by
    rw [show Step.text ∘ Step.key = id from rfl, List.map_id]
  simp only [Place.text, known, and_self, if_true, List.map_cons, List.map_map, steps]
  rfl

/-- A place has a path, which the keys below the place continue. -/
structure Place.HasPath (place : Place) (path : Text) : Prop where
  here : place.text = path
  below (key : Text) : Place.text (place ++ [.key key]) = path ++ "." ++ key

theorem Place.hasPath_action {kind : Text} (known : kind = "http" ∨ kind = "script") :
    Place.HasPath [.key "action", .key kind] "action" where
  here := Place.text_action known []
  below key := by
    rw [List.cons_append, List.cons_append, List.nil_append]
    refine (Place.text_action known [key]).trans ?_
    rw [Text.join, List.flatMap_cons, List.flatMap_nil, List.append_nil, List.append_assoc]

theorem Place.hasPath_config {kind : Text} (known : kind = "http" ∨ kind = "script") :
    Place.HasPath ([.key "action", .key kind] ++ [.key "config"]) "action.config" where
  here := Place.text_action known ["config"]
  below key := by
    refine (Place.text_action known ["config", key]).trans ?_
    rw [Text.join, List.flatMap_cons, List.flatMap_cons, List.flatMap_nil, List.append_nil]
    rfl

theorem Place.hasPath_headers :
    Place.HasPath ([.key "action", .key "http"] ++ [.key "config"] ++ [.key "headers"])
      "action.config.headers" where
  here := Place.text_action (.inl rfl) ["config", "headers"]
  below key := by
    refine (Place.text_action (.inl rfl) ["config", "headers", key]).trans ?_
    rw [Text.join, List.flatMap_cons, List.flatMap_cons, List.flatMap_cons, List.flatMap_nil,
      List.append_nil]
    rfl

/-! ## Checks in words -/

namespace Checked

open Complaint

variable {α β : Type}

/-- The problems in words. -/
def complaints (x : Checked α) : List Complaint := x.problems.map Problem.complaint

@[simp] theorem complaints_valid (a : α) : complaints (valid a) = [] := rfl

@[simp] theorem complaints_fail (place : Place) (fault : Fault) :
    complaints (fail place fault : Checked α) = [fault.at place.text] := rfl

@[simp] theorem complaints_seq (f : Checked (α → β)) (x : Checked α) :
    complaints (f <*> x) = complaints f ++ complaints x :=
  (congrArg _ (problems_apply f x)).trans List.map_append

@[simp] theorem complaints_map (f : α → β) (x : Checked α) :
    complaints (f <$> x) = complaints x := complaints_seq (valid f) x

theorem complaints_eq_nil_iff (x : Checked α) : complaints x = [] ↔ ∃ a, x = valid a := by
  rw [complaints, List.map_eq_nil_iff, problems_eq_nil_iff]

theorem complaints_required {place : Place} {path : Text} (shown : place.text = path)
    {rule : Json → Checked α} {fault? : Json → Option Fault}
    (each : ∀ v, complaints (rule v) = ofNeeded path fault? (some v)) (v : Option Json) :
    complaints (required place rule v) = ofNeeded path fault? v := by
  cases v with
  | none => rw [required, complaints_fail, shown, ofNeeded]
  | some v => exact each v

theorem complaints_textWith {place : Place} {path : Text} (shown : place.text = path)
    (test : Text → Option Fault) (v : Json) :
    complaints (textWith place test v) = ofNeeded path (textFault? test) (some v) := by
  subst shown
  cases v with
  | str t =>
    rw [textWith, ofNeeded, textFault?]
    cases test t <;> rfl
  | _ => rfl

theorem complaints_text {place : Place} {path : Text} (shown : place.text = path) (v : Json) :
    complaints (text place v) = ofNeeded path (textFault? fun _ => none) (some v) := by
  subst shown
  cases v <;> rfl

theorem complaints_object {place : Place} {path : Text} (shown : place.text = path) (v : Json) :
    complaints (object place .notObject v) = ofNeeded path objectFault? (some v) := by
  subst shown
  cases v <;> rfl

theorem complaints_optional {rule : Json → Checked α} {words : Json → List Complaint}
    (each : ∀ v, complaints (rule v) = words v) (v : Option Json) :
    complaints (optional rule v) = ofOptional words v := by
  cases v with
  | none => rfl
  | some v =>
    cases v with
    | null => rfl
    | _ => exact (complaints_map _ _).trans (each _)

theorem complaints_ofProblems (a : α) (problems : List Problem) :
    complaints (ofProblems a problems) = problems.map Problem.complaint := by
  cases problems <;> rfl

theorem complaints_permitted {place : Place} {path : Text} (shown : place.HasPath path)
    (known : List Text) (members : Members) :
    complaints (permitted place known members) = ofUnknown path known members := by
  rw [permitted, complaints_ofProblems, ofUnknown, Entries.keys, List.filter_map, List.map_map,
    List.map_map]
  refine List.map_congr_left fun member _ => ?_
  rw [Function.comp_apply, Function.comp_apply, ← shown.below]
  rfl

theorem complaints_closed {place : Place} {path : Text} (shown : place.HasPath path)
    (known : List Text) (members : Members) (rule : Checked α) :
    complaints (closed place known members rule)
      = ofClosed path known members (complaints rule) := by
  rw [closed, ofClosed]
  split
  · rw [complaints_seq, complaints_map, complaints_permitted shown]
  · rw [complaints_fail, shown.here]

theorem complaints_literal {place : Place} {path : Text} (shown : place.text = path)
    {ofText? : Text → Option α} {choices : List Text}
    (choice : ∀ t, (ofText? t).isSome ↔ t ∈ choices) (fault : Fault) (v : Json) :
    complaints (literal place ofText? fault v)
      = ofNeeded path (choiceFault? choices fault) (some v) := by
  subst shown
  cases v with
  | str t =>
    have known := choice t
    rw [literal, ofNeeded, choiceFault?]
    cases found : ofText? t with
    | none =>
      rw [found] at known
      rw [if_neg fun member => absurd (known.mpr member) (by simp)]
      rfl
    | some a =>
      rw [found] at known
      rw [if_pos (known.mp rfl)]
      rfl
  | _ => rfl

end Checked

namespace Spell

open Complaint Checked

/-- A method has a name if the name is one of those of the methods. -/
theorem isSome_ofName? (t : Text) : (Method.ofName? t).isSome ↔ t ∈ Method.all.map Method.name := by
  simp only [Method.ofName?, List.find?_isSome, decide_eq_true_eq, List.mem_map]

theorem complaints_checkMethod {place : Place} {path : Text} (shown : place.text = path)
    (v : Option Json) :
    complaints (checkMethod place v)
      = ofNeeded path (choiceFault? (Method.all.map Method.name) .unknownMethod) v :=
  complaints_required shown (complaints_literal shown isSome_ofName? _) v

theorem complaints_checkRuntime {place : Place} {path : Text} (shown : place.text = path)
    (v : Option Json) :
    complaints (checkRuntime place v)
      = ofNeeded path (choiceFault? ["node"] .unknownRuntime) v := by
  refine complaints_required shown (complaints_literal shown (fun t => ?_) _) v
  by_cases node : t = "node" <;> simp [node]

theorem complaints_checkHeaders {place : Place} (shown : place.HasPath "action.config.headers")
    (v : Option Json) :
    complaints (checkHeaders place v) = ofOptional headersComplaints v := by
  refine complaints_optional (fun v => ?_) v
  cases v with
  | obj members =>
    rw [headersComplaints]
    dsimp only
    induction members with
    | nil => rfl
    | cons member members ih =>
      rw [List.foldr_cons, complaints_seq, ih, complaints_map, complaints_text (shown.below _)]
      rfl
  | _ => exact congrArg (fun path => [Fault.notObject.at path]) shown.here

theorem complaints_checkRequest (config : Members) :
    complaints (checkRequest ([.key "action", .key "http"] ++ [.key "config"]) config)
      = requestComplaints config := by
  have shown := Place.hasPath_config (.inl rfl : ("http" : Text) = "http" ∨ _)
  rw [checkRequest, requestComplaints, complaints_closed shown, complaints_seq, complaints_seq,
    complaints_seq, complaints_map,
    complaints_checkMethod (shown.below "method"), complaints_checkHeaders Place.hasPath_headers,
    complaints_optional (complaints_text (shown.below "body")),
    checkUrl, complaints_required (shown.below "url") (complaints_textWith (shown.below "url") _)]
  rfl

theorem complaints_checkScript (config : Members) :
    complaints (checkScript ([.key "action", .key "script"] ++ [.key "config"]) config)
      = scriptComplaints config := by
  have shown := Place.hasPath_config (.inr rfl : ("script" : Text) = "http" ∨ _)
  rw [checkScript, scriptComplaints, complaints_closed shown, complaints_seq, complaints_map,
    complaints_checkRuntime (shown.below "runtime"),
    complaints_required (shown.below "code") (complaints_textWith (shown.below "code") _)]
  rfl

theorem complaints_checkKind {kind : Text} (known : kind = "http" ∨ kind = "script")
    {model : String} {rule : Place → Members → Checked Action}
    {words : Members → List Complaint}
    (each : ∀ config,
      complaints (rule ([.key "action", .key kind] ++ [.key "config"]) config) = words config)
    (action : Members) :
    complaints (checkKind kind model rule action) = kindComplaints model words action := by
  rw [checkKind, kindComplaints, complaints_closed (Place.hasPath_action known)]
  congr 1
  cases Entries.find? "config" action with
  | none => exact congrArg (fun path => [Fault.missing.at path]) (Place.hasPath_config known).here
  | some v =>
    cases v with
    | obj config => exact each config
    | _ =>
      exact congrArg (fun path => [(Fault.notConfig model).at path])
        (Place.hasPath_config known).here

theorem complaints_checkAction (v : Option Json) :
    complaints (checkAction v) = actionComplaints v := by
  cases v with
  | none => rfl
  | some v =>
    cases v with
    | obj action =>
      rw [checkAction, required, actionComplaints]
      dsimp only
      cases Entries.find? "type" action with
      | none => rfl
      | some kind =>
        dsimp only
        split
        · refine complaints_checkKind (.inl rfl) (fun config => ?_) action
          rw [complaints_map, complaints_checkRequest]
        · split
          · refine complaints_checkKind (.inr rfl) (fun config => ?_) action
            rw [complaints_map, complaints_checkScript]
          · rfl
    | _ => rfl

theorem complaints_checkSchema {key other : Text} (shown : Place.text [.key key] = key)
    (shown' : Place.text [.key other] = other) (candidate : Members) :
    complaints (checkSchema key other candidate)
      = schemaComplaints (schemaEntry key other candidate) := by
  rw [checkSchema, schemaEntry]
  cases Entries.find? key candidate with
  | some v => exact complaints_object shown v
  | none =>
    cases Entries.find? other candidate with
    | some v => exact complaints_object shown' v
    | none => exact congrArg (fun path => [Fault.missing.at path]) shown

/-- The complaints about an object are those about its fields, in order. -/
theorem complaints_obj (candidate : Members) :
    complaints (check (.obj candidate)) = fieldComplaints candidate := by
  rw [check, fieldComplaints, complaints_seq, complaints_seq, complaints_seq, complaints_seq,
    complaints_seq, complaints_map, complaints_checkAction, complaints_checkSchema rfl rfl,
    complaints_checkSchema rfl rfl, checkId, complaints_required rfl (complaints_textWith rfl _),
    checkName, complaints_required rfl (complaints_textWith rfl _),
    checkDescription, complaints_required rfl (complaints_textWith rfl _)]
  rfl

end Spell

end Grimoire
