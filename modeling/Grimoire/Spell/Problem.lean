import Grimoire.Json.Printer
import Grimoire.Spell.Basic

/-!
# Problems of a candidate

A problem has a place in the candidate and a fault. A result that is checked field by field is either
valid or has at least one problem; where several results are put together, all problems are kept in
order.

Main statement: `Checked.problems_eq_nil_iff` (a result without problems is a valid one).
-/

namespace Grimoire

/-- One step down into a candidate. -/
inductive Step where
  | key (name : Text)
  | index (n : Int)
  deriving DecidableEq

/-- The text of a step. -/
def Step.text : Step → Text
  | key name => name
  | index n => Text.ofInt n

/-- A way down into a candidate. The step after `action` may name the kind of the action. -/
abbrev Place := List Step

/-- The steps with points between them, without the one that names the kind of an action. -/
def Place.text (place : Place) : Text :=
  let steps : Place := match place with
    | .key a :: .key kind :: rest =>
      if a = "action" ∧ (kind = "http" ∨ kind = "script") then .key a :: rest
      else .key a :: .key kind :: rest
    | place => place
  Text.join "." (steps.map Step.text)

/-- What is wrong with a value. -/
inductive Fault where
  | missing
  | notSpell
  | notConfig (model : String)
  | notString
  | notUnicode
  | tooShort (least : Nat)
  | tooLong (greatest : Nat)
  | notName
  | notUuid
  | notUrl
  | notObject
  | notAction
  | noKind
  | unknownKind (shown : Text)
  | unknownMethod
  | unknownRuntime
  | notPermitted
  deriving DecidableEq

namespace Fault

/-- A count of characters. -/
def characters (n : Nat) : Text :=
  Text.ofNat n ++ if n = 1 then (" character" : Text) else " characters"

/-- The wording of a fault. -/
def message : Fault → Text
  | missing => "Field required"
  | notSpell => "Input should be a valid dictionary or instance of Spell"
  | notConfig model => "Input should be a valid dictionary or instance of " ++ model
  | notString => "Input should be a valid string"
  | notUnicode => "Input should be a valid string, unable to parse raw data as a unicode string"
  | tooShort n => "String should have at least " ++ characters n
  | tooLong n => "String should have at most " ++ characters n
  | notName => "String should match pattern '^[a-zA-Z0-9-]+$'"
  | notUuid => "Invalid uuid"
  | notUrl => "Invalid url"
  | notObject => "Input should be a valid dictionary"
  | notAction => "Input should be a valid dictionary or object to extract fields from"
  | noKind => "Unable to extract tag using discriminator 'type'"
  | unknownKind shown =>
    "Input tag '" ++ shown ++ "' found using 'type' does not match any of the expected tags: "
      ++ "'http', 'script'"
  | unknownMethod => "Input should be 'GET', 'POST', 'PUT', 'PATCH' or 'DELETE'"
  | unknownRuntime => "Input should be 'node'"
  | notPermitted => "Extra inputs are not permitted"

/-- The code of a fault. -/
def code : Fault → String
  | missing => "missing"
  | notSpell | notConfig _ => "model_type"
  | notString => "string_type"
  | notUnicode => "string_unicode"
  | tooShort _ => "string_too_short"
  | tooLong _ => "string_too_long"
  | notName => "string_pattern_mismatch"
  | notUuid => "uuid_parsing"
  | notUrl => "url_parsing"
  | notObject => "dict_type"
  | notAction => "model_attributes_type"
  | noKind => "union_tag_not_found"
  | unknownKind _ => "union_tag_invalid"
  | unknownMethod | unknownRuntime => "literal_error"
  | notPermitted => "extra_forbidden"

end Fault

/-- A fault at a place of a candidate. -/
structure Problem where
  place : Place
  fault : Fault
  deriving DecidableEq

/-- A problem in words: the place, what is wrong there, and a code for it. -/
structure Complaint where
  path : Text
  message : Text
  code : Text
  deriving DecidableEq

/-- A problem in words. -/
def Problem.complaint (p : Problem) : Complaint :=
  ⟨p.place.text, p.fault.message, p.fault.code⟩

/-- The path as it is shown, also where it has no step. -/
def Complaint.shownPath (c : Complaint) : Text := if c.path.isEmpty then "<root>" else c.path

/-- Several complaints as one text. -/
def Complaint.report (complaints : List Complaint) : Text :=
  "Spell validation failed:\n" ++ Text.join "\n"
    (complaints.map fun c => "  - " ++ c.shownPath ++ ": " ++ c.message)

/-- A value that passed every check, or the problems that were found. -/
inductive Checked (α : Type) where
  | valid (value : α)
  | invalid (first : Problem) (rest : List Problem)

namespace Checked

variable {α β : Type}

/-- The problems, none if the value is valid. -/
def problems : Checked α → List Problem
  | valid _ => []
  | invalid first rest => first :: rest

/-- The value, if it is valid. -/
def value? : Checked α → Option α
  | valid value => some value
  | invalid .. => none

/-- A single fault. -/
def fail (place : Place) (fault : Fault) : Checked α := invalid ⟨place, fault⟩ []

/-- Problems where there are any, otherwise a value. -/
def ofProblems (value : α) : List Problem → Checked α
  | [] => valid value
  | first :: rest => invalid first rest

/-- Applies a function to a value; the problems of both are kept in order. -/
def apply (f : Checked (α → β)) (x : Checked α) : Checked β :=
  match f, x with
  | valid f, valid a => valid (f a)
  | valid _, invalid p ps => invalid p ps
  | invalid p ps, x => invalid p (ps ++ x.problems)

instance : Applicative Checked where
  pure := valid
  seq f x := apply f (x ())

theorem problems_eq_nil_iff (x : Checked α) : x.problems = [] ↔ ∃ a, x = valid a := by
  cases x <;> simp [problems]

theorem problems_apply (f : Checked (α → β)) (x : Checked α) :
    (apply f x).problems = f.problems ++ x.problems := by
  cases f <;> cases x <;> rfl

end Checked

end Grimoire
