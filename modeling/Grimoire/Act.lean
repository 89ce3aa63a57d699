import Grimoire.Console.Markup
import Grimoire.Log
import Grimoire.Source.Response

/-!
# Acts

An act reads its environment and changes the state: the disk, the log, the count of identifiers that
have been drawn, the input that is left and the output. An act that fails leaves the state that it had
reached.

Main statements: `Act.run_bind` (acts run one after the other until one fails), `Act.run_note` (a note
only adds to the log) and `Act.run_change_of_error` (a change that fails leaves the state as it was).
-/

namespace Grimoire

/-- The room for containers in what is read: in a source, in the file of a book and in a request. The
readers are called from different places, and the stack is not equally full at all of them. -/
structure Rooms where
  source : Json.Room
  book : Json.Room
  request : Json.Room

/-- What an act cannot change. -/
structure Env where
  here : Route
  home : Text
  bookSetting : Option Text
  time : Text
  freshId : Nat → Text
  web : Text → Reply
  charsets : Charsets
  followsMoves : Bool
  rooms : Rooms
  marks : Markup.Rules

/-- What an act can change. -/
structure State where
  disk : Disk
  log : List LogRecord
  drawn : Nat
  input : Bytes
  output : Text

/-- A computation with an environment and a state that may fail. -/
def Act (α : Type) : Type := Env → State → Except Failure α × State

/-- The parts of the program that keep a log. -/
inductive Part where
  | validator
  | storage
  | generator
  | server
  deriving DecidableEq

/-- The name of a part in the log. -/
def Part.name : Part → Text
  | validator => "spellbook.validator"
  | storage => "spellbook.storage"
  | generator => "spellbook.generator"
  | server => "spellbook.server"

namespace Act

variable {α β : Type}

/-- The outcome of an act and the state that it leaves. -/
def run (act : Act α) (env : Env) (s : State) : Except Failure α × State := act env s

instance : Monad Act where
  pure a := fun _ s => (.ok a, s)
  bind act next := fun env s =>
    match act env s with
    | (.ok a, s) => next a env s
    | (.error failure, s) => (.error failure, s)

instance : MonadExceptOf Failure Act where
  throw failure := fun _ s => (.error failure, s)
  tryCatch act handle := fun env s =>
    match act env s with
    | (.ok a, s) => (.ok a, s)
    | (.error failure, s) => handle failure env s

/-- Reads the environment. -/
def env : Act Env := fun env s => (.ok env, s)

/-- Reads the state. -/
def state : Act State := fun _ s => (.ok s, s)

/-- Changes the state. -/
def update (f : State → State) : Act Unit := fun _ s => (.ok (), f s)

/-- An outcome as an act. -/
def ofExcept : Except Failure α → Act α
  | .ok a => pure a
  | .error failure => throw failure

/-- Notes an event in the log. -/
def note (level : Level) (part : Part) (message : Text) (fields : Members) : Act Unit :=
  fun env s => (.ok (), { s with
    log := s.log ++ [⟨env.time, level, part.name, message, .ofJson (.obj fields), none⟩] })

/-- Asks the disk something. -/
def ask (question : Disk → Route → Except DiskError α) : Act α := fun env s =>
  match question s.disk env.here with
  | .ok a => (.ok a, s)
  | .error e => (.error (.disk e), s)

/-- Changes the disk. -/
def change (step : Disk → Route → Except DiskError Disk) : Act Unit := fun env s =>
  match step s.disk env.here with
  | .ok disk => (.ok (), { s with disk })
  | .error e => (.error (.disk e), s)

/-- Makes a folder and what is missing above it. -/
def makeFolders (p : Path) : Act Unit := fun env s =>
  match s.disk.makeFolders env.here p.anchor p.names.reverse with
  | (.ok _, disk) => (.ok (), { s with disk })
  | (.error e, disk) => (.error (.disk e), { s with disk })

/-- Puts an entry at a route. -/
def place (r : Route) (entry : Entry) : Act Unit := update fun s =>
  { s with disk := s.disk.put r entry }

/-- Takes away what lies at a route and below it. -/
def removeTree (r : Route) : Act Unit := update fun s => { s with disk := s.disk.removeTree r }

/-- Runs an act, and takes away what lies at a route if it fails. -/
def orRemove (r : Route) (act : Act α) : Act α :=
  tryCatch act fun failure => do
    removeTree r
    throw failure

/-- Draws an identifier that has not been drawn before. -/
def drawId : Act Text := fun env s =>
  (.ok (env.freshId (s.drawn + 1)), { s with drawn := s.drawn + 1 })

/-- The bytes of a text. -/
def encode (t : Text) : Act Bytes :=
  match Utf8.encode t with
  | some bytes => pure bytes
  | none => throw (.unencodable (Utf8.encodeError t))

/-- Writes a text into a file. The file is there, and empty, before the text is encoded. -/
def writeText (p : Path) (t : Text) : Act Unit := do
  change fun disk here => disk.putContent here p []
  let bytes ← encode t
  change fun disk here => disk.putContent here p bytes

/-- Prints a text. A text that cannot be encoded is not printed at all. -/
def print (t : Text) : Act Unit := do
  discard <| encode t
  update fun s => { s with output := s.output ++ t }

/-- Runs an act and gives its outcome, whether it fails or not. -/
def attempt (act : Act α) : Act (Except Failure α) := fun env s =>
  match act env s with
  | (outcome, s) => (.ok outcome, s)

/-- Takes all the input that is left. -/
def takeInput : Act Bytes := fun _ s => (.ok s.input, { s with input := [] })

theorem run_pure (a : α) (env : Env) (s : State) : (pure a : Act α).run env s = (.ok a, s) := rfl

theorem run_throw (failure : Failure) (env : Env) (s : State) :
    (throw failure : Act α).run env s = (.error failure, s) := rfl

theorem run_bind (act : Act α) (next : α → Act β) (env : Env) (s : State) :
    (act >>= next).run env s =
      match act.run env s with
      | (.ok a, s) => (next a).run env s
      | (.error failure, s) => (.error failure, s) := rfl

instance : LawfulMonad Act := LawfulMonad.mk' Act
  (fun act => by
    funext env s
    show (match act env s with
      | (.ok a, s) => (Except.ok a, s)
      | (.error failure, s) => (.error failure, s)) = act env s
    rcases act env s with ⟨_ | _, _⟩ <;> rfl)
  (fun _ _ => rfl)
  (fun act next last => by
    funext env s
    show (match (match act env s with
        | (.ok a, s) => next a env s
        | (.error failure, s) => (Except.error failure, s)) with
      | (.ok b, s) => last b env s
      | (.error failure, s) => (Except.error failure, s)) =
      match act env s with
      | (.ok a, s) =>
        (match next a env s with
          | (.ok b, s) => last b env s
          | (.error failure, s) => (Except.error failure, s))
      | (.error failure, s) => (Except.error failure, s)
    rcases act env s with ⟨_ | _, _⟩ <;> rfl)

theorem run_attempt (act : Act α) (env : Env) (s : State) :
    (attempt act).run env s = (.ok (act.run env s).1, (act.run env s).2) := rfl

theorem run_note (level : Level) (part : Part) (message : Text) (fields : Members) (env : Env)
    (s : State) : (note level part message fields).run env s
      = (.ok (), { s with
          log := s.log ++ [⟨env.time, level, part.name, message, .ofJson (.obj fields), none⟩] }) := rfl

theorem run_change_of_error {step : Disk → Route → Except DiskError Disk} {env : Env} {s : State}
    {e : DiskError} (h : step s.disk env.here = .error e) :
    (change step).run env s = (.error (.disk e), s) := by
  simp [run, change, h]

end Act

end Grimoire
