import Grimoire.Failure
import Grimoire.Json.Printer
import Grimoire.Text.Blank
import Grimoire.Text.Case

/-!
# Log records

A record is written as one JSON object on one line: time, level, source and message, then the fields of
the record. A field may take the place of a standard one, which keeps its position. The fields are given
by whoever makes the record and may hold what cannot be written; then there is no line.

Main statement: `LogRecord.standard_keys` (the standard fields and their order).
-/

namespace Grimoire

/-- How serious a record is. -/
inductive Level where
  | notset
  | debug
  | info
  | warning
  | error
  | critical
  deriving DecidableEq

namespace Level

/-- The name of a level. -/
def name : Level → Text
  | notset => "NOTSET"
  | debug => "DEBUG"
  | info => "INFO"
  | warning => "WARNING"
  | error => "ERROR"
  | critical => "CRITICAL"

/-- The rank of a level. -/
def rank : Level → Nat
  | notset => 0
  | debug => 1
  | info => 2
  | warning => 3
  | error => 4
  | critical => 5

/-- Names that mean a level, next to its own. -/
def otherNames : List (Text × Level) := [("WARN", warning), ("FATAL", critical)]

/-- The level with a given name. -/
def ofName? (t : Text) : Option Level :=
  match [notset, debug, info, warning, error, critical].find? fun level => level.name = t with
  | some level => some level
  | none => Entries.find? t otherNames

/-- The level that a setting asks for, in any case and with blanks around it; what is no level means
`info`. -/
def ofSetting (setting : Option Text) : Level :=
  match setting with
  | none => info
  | some t =>
    (((Text.trim t).mapM Text.capital?).bind fun name => ofName? (name.map .scalar)).getD info

end Level

/-- A key of a dictionary. -/
inductive FieldKey where
  | text (t : Text)
  | int (n : Int)
  | float (x : Binary64)
  | bool (b : Bool)
  | none
  | other (kind : Text)
  deriving DecidableEq

/-- What may stand in the fields of a record. Anything that has no form in JSON is an object, with the
text that shows it, or the message with which showing it fails. Where a container lies in itself, there
is a cycle. -/
inductive FieldValue where
  | null
  | bool (b : Bool)
  | int (n : Int)
  | float (x : Binary64)
  | str (t : Text)
  | list (items : List FieldValue)
  | dict (entries : List (FieldKey × FieldValue))
  | object (shown : Except Text Text)
  | cycle

/-- Why a record is not written. -/
inductive LogFault where
  | key (kind : Text)
  | hidden (message : Text)
  | cycle
  | tooDeep
  | tooManyDigits
  deriving DecidableEq

/-- What keeps a key from being written. -/
def FieldKey.fault? : FieldKey → Option LogFault
  | int n => if (Json.int n).hasFewDigits then Option.none else some .tooManyDigits
  | other kind => some (.key kind)
  | _ => Option.none

/-- The text of a key that is written. -/
def FieldKey.shown : FieldKey → Text
  | text t => t
  | int n => Text.ofInt n
  | float x => Json.floatText x
  | bool b => if b then "true" else "false"
  | none => "null"
  | other _ => []

/-- The text that a key is, if it is one. -/
def FieldKey.text? : FieldKey → Option Text
  | text t => some t
  | _ => Option.none

namespace FieldValue

mutual

/-- What keeps a value from being written, where `room` containers may still open. A key is looked at
before its value. -/
def fault? : (room : Nat) → FieldValue → Option LogFault
  | _, int n => if (Json.int n).hasFewDigits then none else some .tooManyDigits
  | _, object (.error message) => some (.hidden message)
  | 0, list _ | 0, dict _ | 0, object (.ok _) | 0, cycle => some .tooDeep
  | _ + 1, cycle => some .cycle
  | room + 1, list items => faultItems? room items
  | room + 1, dict entries => faultEntries? room entries
  | _, _ => none

/-- What keeps items from being written. -/
def faultItems? (room : Nat) : List FieldValue → Option LogFault
  | [] => none
  | v :: rest => (fault? room v).or (faultItems? room rest)

/-- What keeps entries from being written. -/
def faultEntries? (room : Nat) : List (FieldKey × FieldValue) → Option LogFault
  | [] => none
  | (k, v) :: rest => k.fault?.or ((fault? room v).or (faultEntries? room rest))

end

mutual

/-- The form in JSON of a value that is written: an object becomes its text. -/
def json : FieldValue → Json
  | null => .null
  | bool b => .bool b
  | int n => .int n
  | float x => .float x
  | str t => .str t
  | list items => .arr (jsonItems items)
  | dict entries => .obj (jsonEntries entries)
  | object (.ok t) => .str t
  | object (.error _) => .null
  | cycle => .null

/-- The form in JSON of items. -/
def jsonItems : List FieldValue → List Json
  | [] => []
  | v :: rest => json v :: jsonItems rest

/-- The form in JSON of entries. -/
def jsonEntries : List (FieldKey × FieldValue) → List (Text × Json)
  | [] => []
  | (k, v) :: rest => (k.shown, json v) :: jsonEntries rest

end

mutual

/-- A value in JSON as a field. -/
def ofJson : Json → FieldValue
  | .null => null
  | .bool b => bool b
  | .int n => int n
  | .float x => float x
  | .str t => str t
  | .arr items => list (ofItems items)
  | .obj members => dict (ofMembers members)

/-- Items in JSON as fields. -/
def ofItems : List Json → List FieldValue
  | [] => []
  | v :: rest => ofJson v :: ofItems rest

/-- Members in JSON as entries. -/
def ofMembers : List (Text × Json) → List (FieldKey × FieldValue)
  | [] => []
  | (k, v) :: rest => (.text k, ofJson v) :: ofMembers rest

end

/-- The entries of a dictionary. Anything else has none. -/
def entries : FieldValue → List (FieldKey × FieldValue)
  | dict entries => entries
  | _ => []

/-- Puts a value under a key: in place if the key is a text that is there, at the end otherwise. What is
no text is never there, because the entries that are put have distinct keys. -/
def put (key : FieldKey) (value : FieldValue) :
    List (FieldKey × FieldValue) → List (FieldKey × FieldValue)
  | [] => [(key, value)]
  | (k, v) :: rest =>
    if k = key ∧ k.text?.isSome then (k, value) :: rest else (k, v) :: put key value rest

end FieldValue

/-- An event and what is known about it. -/
structure LogRecord where
  time : Text
  level : Level
  source : Text
  message : Text
  fields : FieldValue
  exception : Option Text

namespace LogRecord

/-- The standard fields of a record. -/
def standard (r : LogRecord) : Members := [
  ("ts", .str r.time),
  ("level", .str r.level.name),
  ("name", .str r.source),
  ("msg", .str r.message)]

/-- All that is written of a record: a dictionary of fields brings its entries, anything else nothing. -/
def payload (r : LogRecord) : List (FieldKey × FieldValue) :=
  let all := r.fields.entries.foldl (fun done e => FieldValue.put e.1 e.2 done)
    (FieldValue.ofMembers r.standard)
  match r.exception with
  | none => all
  | some t => FieldValue.put (.text "exc_info") (.str t) all

/-- The record as one line, or what keeps it from being written. -/
def line? (r : LogRecord) (room : Nat) : Except LogFault Text :=
  match (FieldValue.dict r.payload).fault? room with
  | some fault => .error fault
  | none => .ok (Json.line (FieldValue.dict r.payload).json)

/-- The text of a failure that is put on record, given the name of its kind. -/
def exceptionText (kind message : Text) : Text :=
  if message.isEmpty then kind else kind ++ ": " ++ message

theorem standard_keys (r : LogRecord) :
    r.standard.keys = (["ts", "level", "name", "msg"] : List Text) := rfl

end LogRecord

/-- The wording of a fault. -/
def LogFault.message : LogFault → Text
  | key kind => "keys must be str, int, float, bool or None, not " ++ kind
  | hidden message => message
  | cycle => "Circular reference detected"
  | tooDeep => "maximum recursion depth exceeded while encoding a JSON object"
  | tooManyDigits => (Json.ReadError.tooManyDigits none).message

namespace Message

/-- A number without its fraction, if the value is one. -/
def whole? : Json → Option Int
  | .int n => some n
  | .bool b => some (if b then 1 else 0)
  | .float (.finite negative significand exponent _) =>
    let (num, den) := Binary64.magnitude significand exponent
    some (if negative then -(num / den : Nat) else (num / den : Nat))
  | _ => none

/-- The name of the kind of a value that is no number. -/
def kindName : Json → Text
  | .null => "NoneType"
  | .str _ => "str"
  | .arr _ => "list"
  | .obj _ => "dict"
  | .bool _ => "bool"
  | .int _ => "int"
  | .float _ => "float"

/-- The text that a mark puts in the place of a value. -/
def fill (mark : CodePoint) (position : Nat) (v : Json) : Except FormatFault Text :=
  if mark = .scalar 's' then .ok v.describeBare
  else if mark = .scalar 'r' then .ok v.describe
  else if mark = .scalar 'd' ∨ mark = .scalar 'i' then
    match whole? v with
    | some n => .ok (Text.ofInt n)
    | none => .error (.notNumber mark (kindName v))
  else .error (.unsupported mark position)

/-- Puts values in the places of the marks of a message. -/
def fillAll (position : Nat) (args : List Json) : Text → Except FormatFault Text
  | [] => if args.isEmpty then .ok [] else .error .tooMany
  | .scalar '%' :: t =>
    match t with
    | [] => .error .incomplete
    | mark :: t =>
      if mark = .scalar '%' then (.scalar '%' :: ·) <$> fillAll (position + 2) args t
      else
        match args with
        | [] => .error .tooFew
        | v :: args =>
          match fill mark (position + 1) v with
          | .error fault => .error fault
          | .ok s => (s ++ ·) <$> fillAll (position + 2) args t
  | c :: t => (c :: ·) <$> fillAll (position + 1) args t

/-- The text of a message; without values it stands as it is. -/
def text (message : Text) (args : List Json) : Except FormatFault Text :=
  if args.isEmpty then .ok message else fillAll 0 args message

end Message

end Grimoire
