import Grimoire.Failure
import Grimoire.Schema.Draft7
import Grimoire.Spell.Placeholders

/-!
# Warnings

A valid spell may still have something odd about it: a schema that will not compile, an input that is no
object, a body that is not sent, or a placeholder that no input property declares.

Main statement: `Spell.isOk_warnings_of_script` (a script always has a list of warnings).
-/

namespace Grimoire

/-- Something odd about a spell. -/
inductive Warning where
  | schema (label : Text) (fault : Schema.Fault)
  | inputNotObject
  | bodyIgnored (method : Method)
  | undeclared (key : Text)

/-- The wording of a warning. -/
def Warning.message : Warning → Text
  | schema label fault =>
    label ++ " is not a valid JSON Schema at " ++ fault.placeText ++ ": " ++ fault.complaint.message
  | inputNotObject =>
    "inputSchema should have type 'object'; MCP clients send arguments as an object"
  | bodyIgnored method => "body is ignored for " ++ method.name ++ " requests"
  | undeclared key =>
    "placeholder \x7b\x7b" ++ key ++ "\x7d\x7d is not declared in inputSchema.properties and will "
      ++ "interpolate as an empty string unless supplied"

namespace Spell

/-- Whether a value counts as nothing: null, false, zero, and whatever holds nothing. -/
def isNothing : Json → Bool
  | .null | .bool false | .int 0 | .str [] | .arr [] | .obj [] => true
  | .float x => x.isZero
  | _ => false

/-- Whether the value of `properties` declares a key. Texts declare what occurs in them; numbers and
truth values cannot be asked. -/
def declares (properties : Json) (key : Text) : Except Failure Bool :=
  if isNothing properties then .ok false
  else
    match properties with
    | .obj members => .ok (Entries.hasKey key members)
    | .arr items => .ok (items.contains (.str key))
    | .str t => .ok (Text.hasInfix key t)
    | .bool _ => .error (.notSearchable "bool")
    | .int _ => .error (.notSearchable "int")
    | .float _ => .error (.notSearchable "float")
    | .null => .ok false

/-- Warnings about a schema. -/
def schemaWarnings (label : Text) (schema : Members) : List Warning :=
  ((Schema.fault (.obj schema)).map (Warning.schema label)).toList

/-- Warnings about keys that `properties` does not declare. -/
def undeclaredWarnings (properties : Json) : List Text → Except Failure (List Warning)
  | [] => .ok []
  | key :: keys =>
    match declares properties key with
    | .error e => .error e
    | .ok isDeclared =>
      match undeclaredWarnings properties keys with
      | .error e => .error e
      | .ok rest => .ok (if isDeclared then rest else .undeclared key :: rest)

/-- Warnings about the action of a spell with an input schema. -/
def actionWarnings (inputSchema : Members) : Action → Except Failure (List Warning)
  | .script _ => .ok []
  | .http r =>
    let ignored : List Warning :=
      if r.body.isSome && !r.method.sendsBody then [.bodyIgnored r.method] else []
    let properties := (Entries.find? "properties" inputSchema).getD .null
    (ignored ++ ·) <$> undeclaredWarnings properties r.placeholders

/-- All warnings about a spell. -/
def warnings (s : Spell) : Except Failure (List Warning) :=
  let inputKind := Entries.find? "type" s.inputSchema
  let general := schemaWarnings "inputSchema" s.inputSchema
    ++ schemaWarnings "outputSchema" s.outputSchema
    ++ if inputKind = some (.str "object") then [] else [.inputNotObject]
  (general ++ ·) <$> actionWarnings s.inputSchema s.action

theorem isOk_warnings_of_script {s : Spell} {code : Text} (h : s.action = .script code) :
    s.warnings.isOk = true := by
  simp only [warnings, actionWarnings, h]
  rfl

end Spell

end Grimoire
