import Grimoire.Json.Printer
import Grimoire.Schema.Pattern

/-!
# Schemas

A schema is true, false, or an object whose keywords have values of the right form. Keywords that are
not known are free. Of several faults the one of the keyword that comes first in `keywords` counts, and
inside it the first one on the way down.

Main statement: `Schema.fault_bool` (true and false are schemas).
-/

namespace Grimoire.Schema

/-- What is wrong with a value in a schema. -/
inductive Complaint where
  | notKind (v : Json) (kinds : List String)
  | noAlternative (v : Json)
  | belowZero (v : Json)
  | notPositive (v : Json)
  | isEmpty (v : Json)
  | repeats (v : Json)
  | notPattern (t : Text)

/-- The wording of a complaint. -/
def Complaint.message : Complaint → Text
  | notKind v kinds =>
    v.describe ++ " is not of type "
      ++ Text.join ", " (kinds.map fun kind => "'" ++ Text.ofString kind ++ "'")
  | noAlternative v => v.describe ++ " is not valid under any of the given schemas"
  | belowZero v => v.describe ++ " is less than the minimum of 0"
  | notPositive v => v.describe ++ " is less than or equal to the minimum of 0"
  | isEmpty v => v.describe ++ " should be non-empty"
  | repeats v => v.describe ++ " has non-unique elements"
  | notPattern t => Text.quoted t ++ " is not a 'regex'"

/-- A complaint and its place: keys and positions on the way down. -/
structure Fault where
  place : List Text
  complaint : Complaint

namespace Fault

/-- The place as text. -/
def placeText (f : Fault) : Text :=
  let t := Text.join "/" f.place
  if t.isEmpty then "<root>" else t

/-- The fault seen from one step further up. -/
def below (key : Text) (f : Fault) : Fault := ⟨key :: f.place, f.complaint⟩

end Fault

/-- The forms that values of keywords have. -/
inductive Form where
  | free
  | text
  | bool
  | number
  | positive
  | count
  | pattern
  | list
  | names
  | kinds
  | schema
  | schemaOrList
  | schemaList
  | schemaByName
  | schemaByPattern
  | dependencies
  deriving DecidableEq

/-- Keywords that describe, and those for numbers and texts. -/
def simpleKeywords : List (Text × Form) := [
  ("$id", .text), ("$schema", .text), ("$ref", .text), ("$comment", .text), ("title", .text),
  ("description", .text), ("default", .free), ("readOnly", .bool), ("examples", .list),
  ("multipleOf", .positive), ("maximum", .number), ("exclusiveMaximum", .number),
  ("minimum", .number), ("exclusiveMinimum", .number), ("maxLength", .count), ("minLength", .count),
  ("pattern", .pattern)]

/-- Keywords for arrays and objects. -/
def containerKeywords : List (Text × Form) := [
  ("additionalItems", .schema), ("items", .schemaOrList), ("maxItems", .count),
  ("minItems", .count), ("uniqueItems", .bool), ("contains", .schema), ("maxProperties", .count),
  ("minProperties", .count), ("required", .names), ("additionalProperties", .schema),
  ("definitions", .schemaByName), ("properties", .schemaByName),
  ("patternProperties", .schemaByPattern), ("dependencies", .dependencies),
  ("propertyNames", .schema)]

/-- Keywords for all kinds of values. -/
def generalKeywords : List (Text × Form) := [
  ("const", .free), ("enum", .list), ("type", .kinds), ("format", .text),
  ("contentMediaType", .text), ("contentEncoding", .text), ("if", .schema), ("then", .schema),
  ("else", .schema), ("allOf", .schemaList), ("anyOf", .schemaList), ("oneOf", .schemaList),
  ("not", .schema)]

/-- The keywords in the order in which they count. -/
def keywords : List (Text × Form) := simpleKeywords ++ containerKeywords ++ generalKeywords

/-- The names of the kinds of values. -/
def kindNames : List Text :=
  ["array", "boolean", "integer", "null", "number", "object", "string"]

/-- Whether a value is a number without a fraction. -/
def isInteger : Json → Bool
  | .int _ => true
  | .float x => x.isIntegral
  | _ => false

/-- Whether a value is a number. -/
def isNumber : Json → Bool
  | .int _ | .float _ => true
  | _ => false

/-- Whether a number is below zero. -/
def isBelowZero : Json → Bool
  | .int n => n < 0
  | .float x => x.isNegative
  | _ => false

/-- Whether a number is zero or below. -/
def isZeroOrBelow : Json → Bool
  | .int n => n ≤ 0
  | .float x => x.isNonpositive
  | _ => false

/-- Whether a value is one of the names of kinds. -/
def isKindName (v : Json) : Bool := v.text?.any kindNames.contains

/-- Whether a value names kinds: one, or several different ones. -/
def namesKinds : Json → Bool
  | .arr items => items ≠ [] && items.all isKindName && decide items.Nodup
  | v => isKindName v

/-- Whether a value is a list of different texts. -/
def isNameList : Json → Bool
  | .arr items => items.all (·.text?.isSome) && decide items.Nodup
  | _ => false

/-- A complaint unless a condition holds. -/
def demand (holds : Bool) (complaint : Complaint) : Option Fault :=
  if holds then none else some ⟨[], complaint⟩

/-- The fault of a value whose form has no schemas in it. -/
def plainFault (form : Form) (v : Json) : Option Fault :=
  match form with
  | .text => demand v.text?.isSome (.notKind v ["string"])
  | .bool =>
    match v with
    | .bool _ => none
    | _ => some ⟨[], .notKind v ["boolean"]⟩
  | .number => demand (isNumber v) (.notKind v ["number"])
  | .positive =>
    (demand (isNumber v) (.notKind v ["number"])).or (demand (!isZeroOrBelow v) (.notPositive v))
  | .count =>
    (demand (isInteger v) (.notKind v ["integer"])).or (demand (!isBelowZero v) (.belowZero v))
  | .pattern =>
    match v with
    | .str t => demand (Pattern.isPattern t) (.notPattern t)
    | _ => some ⟨[], .notKind v ["string"]⟩
  | .list => demand v.items?.isSome (.notKind v ["array"])
  | .names =>
    match v with
    | .arr items =>
      let bad? := items.zipIdx.find? fun (item, _) => item.text?.isNone
      match bad? with
      | some (item, i) => some ⟨[Text.ofNat i], .notKind item ["string"]⟩
      | none => demand (decide items.Nodup) (.repeats v)
    | _ => some ⟨[], .notKind v ["array"]⟩
  | .kinds => demand (namesKinds v) (.noAlternative v)
  | _ => none

/-- The first fault in the order of the keywords. -/
def firstFault (faults : List (Text × Fault)) : Option Fault :=
  keywords.findSome? fun (key, _) => (faults.find? fun fault => fault.1 = key).map Prod.snd

/-- The fault of the keys of an object that have to be patterns. -/
def keyFault (members : Members) : Option Fault :=
  (members.keys.find? fun key => !Pattern.isPattern key).map fun key => ⟨[], .notPattern key⟩

mutual

/-- The first fault of a schema, if there is one. -/
def fault : Json → Option Fault
  | .bool _ => none
  | .obj members => firstFault (memberFaults members)
  | v => some ⟨[], .notKind v ["object", "boolean"]⟩

/-- The faults of the members of a schema, at most one for each. -/
def memberFaults : List (Text × Json) → List (Text × Fault)
  | [] => []
  | (key, v) :: rest =>
    let found : Option Fault :=
      match Entries.find? key keywords with
      | none => none
      | some .schema => fault v
      | some .schemaOrList =>
        match v with
        | .arr items => demand (items ≠ [] && (itemFault 0 items).isNone) (.noAlternative v)
        | v => demand (fault v).isNone (.noAlternative v)
      | some .schemaList =>
        match v with
        | .arr [] => some ⟨[], .isEmpty v⟩
        | .arr items => itemFault 0 items
        | v => some ⟨[], .notKind v ["array"]⟩
      | some .schemaByName =>
        match v with
        | .obj members => entryFault members
        | v => some ⟨[], .notKind v ["object"]⟩
      | some .schemaByPattern =>
        match v with
        | .obj members => (entryFault members).or (keyFault members)
        | v => some ⟨[], .notKind v ["object"]⟩
      | some .dependencies =>
        match v with
        | .obj members => dependencyFault members
        | v => some ⟨[], .notKind v ["object"]⟩
      | some form => plainFault form v
    (found.map fun f => (key, f.below key)).toList ++ memberFaults rest

/-- The first fault of a list of schemas, of which the first one has a given position. -/
def itemFault (position : Nat) : List Json → Option Fault
  | [] => none
  | v :: rest => ((fault v).map (Fault.below (Text.ofNat position))).or (itemFault (position + 1) rest)

/-- The first fault of schemas by name. -/
def entryFault : List (Text × Json) → Option Fault
  | [] => none
  | (key, v) :: rest => ((fault v).map (Fault.below key)).or (entryFault rest)

/-- The first fault of schemas or lists of names by name. -/
def dependencyFault : List (Text × Json) → Option Fault
  | [] => none
  | (key, v) :: rest =>
    (demand (isNameList v || (fault v).isNone) (.noAlternative v)).map (Fault.below key)
      |>.or (dependencyFault rest)

end

theorem fault_bool (b : Bool) : fault (.bool b) = none := by rw [fault]

end Grimoire.Schema
