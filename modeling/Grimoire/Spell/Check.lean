import Grimoire.Spell.Problem
import Grimoire.Url.Absolute

/-!
# Checking candidates

A candidate is any JSON value. Every field has a rule of its own that sees the value of that field
or its absence, and `Spell.check` puts the fields together, so that all problems are found, in the
order of the fields.

Main statement: `Spell.check_eq_invalid` (what is not an object has one problem, at the root).
-/

namespace Grimoire

namespace Checked

variable {α : Type}

/-- A field that has to be there. -/
def required (place : Place) (rule : Json → Checked α) : Option Json → Checked α
  | none => fail place .missing
  | some v => rule v

/-- A field that may be absent or null. -/
def optional (rule : Json → Checked α) : Option Json → Checked (Option α)
  | none | some .null => valid none
  | some v => some <$> rule v

/-- Any text. -/
def text (place : Place) : Json → Checked Text
  | .str t => valid t
  | _ => fail place .notString

/-- A text that satisfies `test`. -/
def textWith (place : Place) (test : Text → Option Fault) : Json → Checked Text
  | .str t =>
    match test t with
    | none => valid t
    | some fault => fail place fault
  | _ => fail place .notString

/-- Members of which only `known` ones are permitted. -/
def permitted (place : Place) (known : List Text) (members : Members) : Checked Unit :=
  ofProblems () <| (members.filter fun (k, _) => !known.contains k).map fun (k, _) =>
    ⟨place ++ [.key k], .notPermitted⟩

/-- A model with known keys only: what a rule says about its fields, then what is said about other keys.
A key that cannot be encoded makes the model unreadable as a whole, and nothing else is said about it. -/
def closed (place : Place) (known : List Text) (members : Members) (rule : Checked α) : Checked α :=
  if (Entries.keys members).all Text.isEncodable then
    (fun a _ => a) <$> rule <*> permitted place known members
  else fail place .notUnicode

/-- One of some texts, of which `ofText?` knows what they stand for. -/
def literal (place : Place) (ofText? : Text → Option α) (fault : Fault) : Json → Checked α
  | .str t =>
    match ofText? t with
    | some a => valid a
    | none => fail place (if t.isEncodable then fault else .notUnicode)
  | _ => fail place fault

/-- An object. -/
def object (place : Place) (fault : Fault) : Json → Checked Members
  | .obj members => valid members
  | _ => fail place fault

end Checked

namespace Spell

open Checked

/-- What is wrong with the length of a text that has to be encodable. -/
def lengthFault? (least : Nat) (greatest : Option Nat) (t : Text) : Option Fault :=
  if !t.isEncodable then some .notUnicode
  else if t.length < least then some (.tooShort least)
  else match greatest with
    | some n => if n < t.length then some (.tooLong n) else none
    | none => none

/-- What is wrong with a name. -/
def nameFault? (t : Text) : Option Fault :=
  match lengthFault? minNameLength (some maxNameLength) t with
  | some fault => some fault
  | none => if t.all isNameCodePoint then none else some .notName

/-- What is wrong with a description. -/
def descriptionFault? (t : Text) : Option Fault :=
  lengthFault? minDescriptionLength (some maxDescriptionLength) t

/-- A hexadecimal digit. -/
def isHexDigit : CodePoint → Bool := CodePoint.satisfies fun c =>
  c.isDigit || ('a' ≤ c && c ≤ 'f') || ('A' ≤ c && c ≤ 'F')

/-- Whether a text is an identifier: groups of 8, 4, 4, 4 and 12 hexadecimal digits. -/
def isUuid (t : Text) : Bool :=
  let groups := Text.splitOn '-' t
  groups.map List.length == [8, 4, 4, 4, 12] && groups.all (·.all isHexDigit)

/-- The rule for identifiers. -/
def checkId : Option Json → Checked Text :=
  required [.key "id"] (textWith [.key "id"] fun t => if isUuid t then none else some .notUuid)

/-- The rule for names. -/
def checkName : Option Json → Checked Text :=
  required [.key "name"] (textWith [.key "name"] nameFault?)

/-- The rule for descriptions. -/
def checkDescription : Option Json → Checked Text :=
  required [.key "description"] (textWith [.key "description"] descriptionFault?)

/-- The rule for schemas. A schema may stand under a second key, which counts only if the first one is
absent. -/
def checkSchema (key other : Text) (candidate : Members) : Checked Members :=
  match Entries.find? key candidate, Entries.find? other candidate with
  | none, some v => object [.key other] .notObject v
  | v, _ => required [.key key] (object [.key key] .notObject) v

/-- The rule for addresses. -/
def checkUrl (place : Place) : Option Json → Checked Text :=
  required place (textWith place fun t => if Url.isAbsolute t then none else some .notUrl)

/-- The rule for methods. -/
def checkMethod (place : Place) : Option Json → Checked Method :=
  required place (literal place Method.ofName? .unknownMethod)

/-- The rule for headers: one problem for each value that is no text. Names are mended on the way to
it. -/
def checkHeaders (place : Place) : Option Json → Checked (Option (Entries Text)) :=
  optional fun v =>
    match v with
    | .obj members =>
      members.foldr (fun (k, v) rest =>
        (fun t entries => (k, t) :: entries) <$> text (place ++ [.key k.mend]) v <*> rest) (valid [])
    | _ => fail place .notObject

/-- The rule for the configuration of a request. -/
def checkRequest (place : Place) (config : Members) : Checked HttpRequest :=
  let field (key : Text) := place ++ [.key key]
  closed place ["url", "method", "headers", "body"] config <|
    HttpRequest.mk
      <$> checkUrl (field "url") (Entries.find? "url" config)
      <*> checkMethod (field "method") (Entries.find? "method" config)
      <*> checkHeaders (field "headers") (Entries.find? "headers" config)
      <*> optional (text (field "body")) (Entries.find? "body" config)

/-- The rule for runtimes, of which there is one. -/
def checkRuntime (place : Place) : Option Json → Checked Unit :=
  required place (literal place (fun t => if t = "node" then some () else none) .unknownRuntime)

/-- The rule for the configuration of a script. -/
def checkScript (place : Place) (config : Members) : Checked Text :=
  let field (key : Text) := place ++ [.key key]
  closed place ["runtime", "code"] config <|
    (fun _ code => code)
      <$> checkRuntime (field "runtime") (Entries.find? "runtime" config)
      <*> required (field "code") (textWith (field "code") (lengthFault? 1 none))
        (Entries.find? "code" config)

/-- The rule for actions of a kind, given the rule for their configuration. -/
def checkKind (kind : Text) (model : String) (rule : Place → Members → Checked Action)
    (action : Members) : Checked Action :=
  let place : Place := [.key "action", .key kind]
  let configPlace := place ++ [.key "config"]
  closed place ["type", "config"] action <|
    required configPlace (fun v =>
        match v with
        | .obj config => rule configPlace config
        | _ => fail configPlace (.notConfig model))
      (Entries.find? "config" action)

/-- The rule for actions: the kind says which configuration is expected. -/
def checkAction : Option Json → Checked Action :=
  required [.key "action"] fun v =>
    match v with
    | .obj action =>
      match Entries.find? "type" action with
      | none => fail [.key "action"] .noKind
      | some kind =>
        if kind = .str "http" then
          checkKind "http" "HttpConfig" (fun p c => .http <$> checkRequest p c) action
        else if kind = .str "script" then
          checkKind "script" "ScriptConfig" (fun p c => .script <$> checkScript p c) action
        else fail [.key "action"] (.unknownKind kind.describeBare.mend)
    | _ => fail [.key "action"] .notAction

/-- Checks a candidate field by field. Fields that are not known do not matter. -/
def check : Json → Checked Spell
  | .obj candidate =>
    Spell.mk
      <$> checkId (Entries.find? "id" candidate)
      <*> checkName (Entries.find? "name" candidate)
      <*> checkDescription (Entries.find? "description" candidate)
      <*> checkSchema "inputSchema" "input_schema" candidate
      <*> checkSchema "outputSchema" "output_schema" candidate
      <*> checkAction (Entries.find? "action" candidate)
  | _ => fail [] .notSpell

theorem check_eq_invalid {candidate : Json} (h : candidate.members? = none) :
    check candidate = .invalid ⟨[], .notSpell⟩ [] := by
  cases candidate <;> first | rfl | simp [Json.members?] at h

end Spell

end Grimoire
