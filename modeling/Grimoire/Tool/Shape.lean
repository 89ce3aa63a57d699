import Grimoire.Json.Printer
import Grimoire.Spell.Basic

/-!
# Shapes of arguments

A shape says what an argument of a tool has to be. It is advertised as a JSON schema, and arguments are
checked against it. Of several faults the one that is nearest to the root is told; among equally near
ones the one whose place is the greatest; at one place a value of the wrong kind comes first.

Main statements: `Shape.faults_text_str` (a text has no fault of kind) and `Shape.best_singleton`.
-/

namespace Grimoire

/-- What an argument has to be. -/
inductive Shape where
  /-- A text: one of the choices if there are any, within the lengths, and a name if asked for. -/
  | text (description : Text) (choices : List Text) (lengths : Option (Nat × Nat)) (isName : Bool)
  /-- An object. Fields that are needed have to be there. -/
  | object (description : Option Text) (fields : Option (List (Text × Shape))) (needed : List Text)

namespace Shape

/-- The pattern of names, as it is advertised. -/
def namePattern : Text := "^[a-zA-Z0-9-]+$"

/-- Whether a text matches the pattern of names, which lets a line end follow. -/
def matchesName (t : Text) : Bool :=
  let name := if t.getLast? = some (.scalar '\n') then t.dropLast else t
  !name.isEmpty && name.all Spell.isNameCodePoint

/-- A member on its own. -/
def member (key : Text) (v : Json) : Members := [(key, v)]

/-- The members for lengths. -/
def lengthMembers : Option (Nat × Nat) → Members
  | some (least, greatest) => member "minLength" (.int least) ++ member "maxLength" (.int greatest)
  | none => []

/-- A member that lists texts, left out if there are none. -/
def listMember (key : Text) (ts : List Text) : Members :=
  if ts.isEmpty then [] else member key (.arr (ts.map .str))

mutual

/-- The schema that advertises a shape. -/
def schema : Shape → Members
  | text description choices lengths isName =>
    member "type" (.str "string") ++ listMember "enum" choices
      ++ member "description" (.str description) ++ lengthMembers lengths
      ++ if isName then member "pattern" (.str namePattern) else []
  | object description fields needed =>
    let described := match description with
      | some t => member "description" (.str t)
      | none => []
    let properties := match fields with
      | some fields => member "properties" (.obj (schemas fields))
      | none => []
    member "type" (.str "object") ++ described ++ properties ++ listMember "required" needed

/-- The schemas of fields by name. -/
def schemas : List (Text × Shape) → Members
  | [] => []
  | (name, shape) :: rest => (name, .obj (schema shape)) :: schemas rest

end

/-- What is wrong with an argument. -/
inductive Complaint where
  | notKind (value : Json) (kind : Text)
  | notChoice (value : Json) (choices : List Text)
  | tooShort (value : Json)
  | tooLong (value : Json)
  | noName (value : Json)
  | missing (key : Text)
  deriving DecidableEq

/-- The wording of a complaint. -/
def Complaint.message : Complaint → Text
  | notKind value kind => value.describe ++ " is not of type " ++ Text.quoted kind
  | notChoice value choices =>
    value.describe ++ " is not one of " ++ (Json.arr (choices.map Json.str)).describe
  | tooShort value => value.describe ++ " is too short"
  | tooLong value => value.describe ++ " is too long"
  | noName value => value.describe ++ " does not match " ++ Text.quoted namePattern
  | missing key => Text.quoted key ++ " is a required property"

/-- A complaint, where it arises, and whether the value there is of the kind that is asked for. -/
structure Fault where
  place : List Text
  complaint : Complaint
  hasKind : Bool
  deriving DecidableEq

/-- What is wrong with a value that should be one of some choices. -/
def choiceFaults (choices : List Text) (v : Json) (hasKind : Bool) : List Fault :=
  if choices.isEmpty || v.text?.any choices.contains then []
  else [⟨[], .notChoice v choices, hasKind⟩]

/-- What is wrong with the length of a text. -/
def lengthFaults (lengths : Option (Nat × Nat)) (t : Text) : List Fault :=
  match lengths with
  | none => []
  | some (least, greatest) =>
    (if t.length < least then [⟨[], .tooShort (.str t), true⟩] else [])
      ++ (if greatest < t.length then [⟨[], .tooLong (.str t), true⟩] else [])

mutual

/-- All that is wrong with a value, in the order of the schema. -/
def faults : Shape → Json → List Fault
  | text _ choices lengths isName, v =>
    match v with
    | .str t =>
      choiceFaults choices v true ++ lengthFaults lengths t
        ++ (if isName && !matchesName t then [⟨[], .noName v, true⟩] else [])
    | _ => ⟨[], .notKind v "string", false⟩ :: choiceFaults choices v false
  | object _ fields needed, v =>
    match v with
    | .obj members =>
      (match fields with
        | some fields => fieldFaults fields members
        | none => [])
        ++ (needed.filter fun key => !Entries.hasKey key members).map fun key =>
          ⟨[], .missing key, true⟩
    | _ => [⟨[], .notKind v "object", false⟩]

/-- All that is wrong with the members that are there. -/
def fieldFaults : List (Text × Shape) → Members → List Fault
  | [], _ => []
  | (name, shape) :: rest, members =>
    (match Entries.find? name members with
      | some v => (faults shape v).map fun f => { f with place := name :: f.place }
      | none => [])
      ++ fieldFaults rest members

end

/-- Whether a place comes after another one in order. -/
def isAfter (place other : List Text) : Bool :=
  match place, other with
  | _, [] => !place.isEmpty
  | [], _ => false
  | name :: place, name' :: other =>
    if name = name' then isAfter place other else !Text.le name name'

/-- Whether a fault is to be told rather than one that came before it. -/
def Fault.isBetter (f before : Fault) : Bool :=
  if f.place.length ≠ before.place.length then f.place.length < before.place.length
  else if f.place ≠ before.place then isAfter f.place before.place
  else !f.hasKind && before.hasKind

/-- The fault that is told. -/
def best : List Fault → Option Fault
  | [] => none
  | f :: rest => some (rest.foldl (fun best f => if f.isBetter best then f else best) f)

/-- The complaint that is told about a value. -/
def complaint? (shape : Shape) (v : Json) : Option Complaint :=
  (best (faults shape v)).map Fault.complaint

theorem best_singleton (f : Fault) : best [f] = some f := rfl

theorem faults_text_str {description t : Text} {choices : List Text}
    {lengths : Option (Nat × Nat)} {isName : Bool} {f : Fault}
    (h : f ∈ faults (.text description choices lengths isName) (.str t)) : f.hasKind = true := by
  simp only [faults, choiceFaults, lengthFaults, List.mem_append] at h
  rcases h with (h | h) | h
  · split at h
    · simp at h
    · simp only [List.mem_singleton] at h
      rw [h]
  · split at h
    · simp at h
    · rw [List.mem_append] at h
      rcases h with h | h <;> split at h <;> simp at h <;> rw [h]
  · split at h
    · simp only [List.mem_singleton] at h
      rw [h]
    · simp at h

end Shape

end Grimoire
