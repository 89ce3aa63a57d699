import Grimoire.Disk.Basic
import Grimoire.Json.Reader
import Grimoire.Source.Locator
import Grimoire.Spell.Problem

/-!
# Failures

A failure is the cause for which an operation came to nothing. `Failure.message` is the one place where
causes are worded. Some failures are expected and reported to the user; the rest end the program.

Main statement: `Failure.isReported_of_problems` (problems of a candidate are always reported).
-/

namespace Grimoire

/-- Why a document could not be had from its source. -/
inductive SourceFault where
  | obstacle (obstacle : Obstacle)
  | web (message : Text)
  | tooLarge (limit : Nat)
  | malformed (error : Json.SyntaxError)
  deriving DecidableEq

/-- The wording of a fault of a source. -/
def SourceFault.message : SourceFault → Text
  | obstacle o => o.message
  | web message => message
  | tooLarge limit => "document exceeds " ++ Text.ofNat limit ++ " bytes"
  | malformed e =>
    "invalid JSON (" ++ e.fault.message ++ " at line " ++ Text.ofNat e.line ++ ")"

/-- What is wrong with the marks in a text that is printed. -/
inductive MarkupFault where
  | nothingToClose (position : Nat)
  | notOpen (tag : Text) (position : Nat)
  | call (message : Text)
  | style (message : Text)
  deriving DecidableEq

/-- The wording of a fault of marks. -/
def MarkupFault.message : MarkupFault → Text
  | nothingToClose position =>
    "closing tag '[/]' at position " ++ Text.ofNat position ++ " has nothing to close"
  | notOpen tag position =>
    "closing tag '[" ++ tag ++ "]' at position " ++ Text.ofNat position
      ++ " doesn't match any open tag"
  | call message | style message => message

/-- What is wrong with a message and the values to be put into it. -/
inductive FormatFault where
  | tooFew
  | tooMany
  | incomplete
  | unsupported (mark : CodePoint) (position : Nat)
  | notNumber (mark : CodePoint) (kind : Text)
  deriving DecidableEq

/-- The wording of a fault of a message. -/
def FormatFault.message : FormatFault → Text
  | tooFew => "not enough arguments for format string"
  | tooMany => "not all arguments converted during string formatting"
  | incomplete => "incomplete format"
  | unsupported mark position =>
    "unsupported format character '" ++ [mark] ++ "' (0x"
      ++ (Nat.toDigits 16 mark.val).map CodePoint.scalar ++ ") at index " ++ Text.ofNat position
  | notNumber mark kind =>
    "%" ++ [mark] ++ " format: a real number is required, not " ++ kind

/-- Why an operation came to nothing. -/
inductive Failure where
  | invalid (first : Problem) (rest : List Problem)
  | duplicateName (name id : Text)
  | duplicateId (id : Text)
  | unknownSpell (key : Text)
  | unknownExample (name : Text) (known : List Text)
  | source (place : Text) (fault : SourceFault)
  | locator (fault : LocatorFault)
  | address (message : Text)
  | charset (message : Text)
  | disk (error : DiskError)
  | folderTaken (path : Path)
  | notPlainName (name : Text)
  | longName
  | unencodable (error : Utf8.EncodeError)
  | undecodable (error : Utf8.DecodeError)
  | unread (error : Json.ReadError)
  | tooDeep
  | digestMismatch (got expected : Text)
  | notSearchable (kind : Text)
  | unsupportedAction (shown : Text)
  | absentId (id : Text)
  | unknownTool (name : Text)
  | markup (fault : MarkupFault)
  | format (fault : FormatFault)
  deriving DecidableEq

/-- The wording of a refusal to read a document or to write a number. -/
def Json.ReadError.message : Json.ReadError → Text
  | malformed e => e.message
  | tooDeep container =>
    "maximum recursion depth exceeded while decoding a JSON "
      ++ (match container with
        | .array => ("array" : Text)
        | .object => "object")
      ++ " from a unicode string"
  | tooManyDigits count =>
    "Exceeds the limit (" ++ Text.ofNat Json.digitLimit ++ " digits) for integer string conversion"
      ++ (match count with
        | some n => ": value has " ++ Text.ofNat n ++ " digits"
        | none => ([] : Text))
      ++ "; use sys.set_int_max_str_digits() to increase the limit"

namespace Failure

/-- The problems of a candidate, if the failure is about one. -/
def problems : Failure → List Problem
  | invalid first rest => first :: rest
  | _ => []

/-- The wording of a failure. -/
def message : Failure → Text
  | invalid first rest => Complaint.report ((first :: rest).map Problem.complaint)
  | duplicateName name id =>
    "Spell with name \"" ++ name ++ "\" already exists (id: " ++ id
      ++ "). Each spell name must be unique."
  | duplicateId id =>
    "A spell with id " ++ id ++ " already exists (use --force to replace it)"
  | unknownSpell key => "No spell named or with id " ++ Text.quoted key
  | unknownExample name known =>
    "Unknown example: " ++ name ++ ". Available: " ++ Text.join ", " known
  | source place fault => place ++ ": " ++ fault.message
  | locator fault => fault.message
  | address message => message
  | charset message => message
  | disk error => error.message
  | folderTaken path => "Output directory already exists: " ++ path.text
  | notPlainName name => "Bundle entry must be a plain file name: " ++ Text.quoted name
  | longName => "'H' format requires 0 <= number <= 65535"
  | unencodable error => error.message
  | undecodable error => error.message
  | unread error => error.message
  | tooDeep => "Maximum serialization depth exceeded"
  | digestMismatch got expected => "SHA-256 mismatch: got " ++ got ++ ", expected " ++ expected
  | notSearchable kind => "argument of type '" ++ kind ++ "' is not iterable"
  | unsupportedAction shown => "unsupported action: " ++ shown
  | absentId id => Text.quoted id
  | unknownTool name => "Unknown tool: " ++ name
  | markup fault => fault.message
  | format fault => fault.message

/-- Whether a failure is one of those that are reported to the user. -/
def isReported : Failure → Bool
  | invalid .. | duplicateName .. | duplicateId _ | unknownSpell _ | unknownExample ..
  | source .. => true
  | _ => false

theorem isReported_of_problems {f : Failure} (h : f.problems ≠ []) : f.isReported = true := by
  cases f <;> first | rfl | exact absurd rfl h

end Failure

end Grimoire
