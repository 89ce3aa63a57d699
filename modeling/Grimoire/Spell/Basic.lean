import Grimoire.Json.Basic

/-!
# Spells

A spell describes one tool: its name, what goes in and out, and what it does when it is called,
which is either a request to a web address or a script.
-/

namespace Grimoire

/-- The method of a request. -/
inductive Method where
  | get
  | post
  | put
  | patch
  | delete
  deriving DecidableEq

namespace Method

/-- All methods. -/
def all : List Method := [get, post, put, patch, delete]

/-- The name of a method. -/
def name : Method → Text
  | get => "GET"
  | post => "POST"
  | put => "PUT"
  | patch => "PATCH"
  | delete => "DELETE"

/-- The method with a given name. -/
def ofName? (t : Text) : Option Method := all.find? fun m => m.name = t

/-- Whether requests with a method send their body. -/
def sendsBody : Method → Bool
  | post | put | patch => true
  | get | delete => false

theorem ofName?_name (m : Method) : ofName? m.name = some m := by
  cases m <;> decide

end Method

/-- A request whose address, header values and body are templates. -/
structure HttpRequest where
  url : Text
  method : Method
  headers : Option (Entries Text)
  body : Option Text
  deriving DecidableEq

namespace HttpRequest

/-- The headers, none if they are absent. -/
def headerEntries (r : HttpRequest) : Entries Text := r.headers.getD []

/-- The body, if the method sends it. -/
def sentBody (r : HttpRequest) : Option Text := if r.method.sendsBody then r.body else none

end HttpRequest

/-- What a tool does when it is called. -/
inductive Action where
  | http (request : HttpRequest)
  | script (code : Text)
  deriving DecidableEq

/-- The name of the kind of an action. -/
def Action.kind : Action → Text
  | http _ => "http"
  | script _ => "script"

/-- A description of one tool. -/
structure Spell where
  id : Text
  name : Text
  description : Text
  inputSchema : Members
  outputSchema : Members
  action : Action
  deriving DecidableEq

namespace Spell

/-- The least length of a name. -/
def minNameLength : Nat := 3
/-- The greatest length of a name. -/
def maxNameLength : Nat := 50
/-- The least length of a description. -/
def minDescriptionLength : Nat := 100
/-- The greatest length of a description. -/
def maxDescriptionLength : Nat := 500

/-- Names consist of ASCII letters, digits and hyphens. -/
def isNameCodePoint : CodePoint → Bool := CodePoint.satisfies fun c => c.isAlphanum || c == '-'

/-- Whether the results of the tool are checked: the output schema declares some property. -/
def checksOutput (s : Spell) : Bool :=
  match Entries.find? "properties" s.outputSchema with
  | some (.obj (_ :: _)) => true
  | _ => false

end Spell

end Grimoire
