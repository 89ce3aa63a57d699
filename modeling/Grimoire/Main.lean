import Grimoire.Command.Run
import Grimoire.Console.Styles
import Grimoire.Date
import Grimoire.Disk.Change
import Grimoire.Spell.Identifier

/-!
# The program

The outer layer: it loads what a command may touch from the disk, runs the command, and puts the changes
of the disk, the output and the log where they belong. A command that touches more than was loaded is
run again with that loaded too.
-/

namespace Grimoire.Shell

/-- The name of a route on the disk. A name that is no string cannot be asked for from here. -/
def nameOf (r : Route) : IO String :=
  match (Disk.pathOf r).text.toString? with
  | some name => return name
  | none => throw (.userError "there is no way to a name that is not in UTF-8 from here")

/-- What lies at a route. -/
def peek (r : Route) : IO (Option Entry) := do
  try
    return some (.file (← IO.FS.readBinFile (← nameOf r)).toList)
  catch
    | .noFileOrDirectory .. => return none
    | .inappropriateType _ 21 _ => return some .folder
    | .inappropriateType .. => return none
    | e => throw e

/-- Loads what lies at a route and on the way to it. -/
def load (disk : Disk) (r : Route) : IO Disk :=
  (List.range r.length).foldlM (fun disk n => do
    let r := r.take (n + 1)
    match ← peek r with
    | some entry => return disk.put r entry
    | none => return disk) disk

/-- Brings about one change. -/
def apply : Disk.Change → IO Unit
  | .remove r => do
    match ← peek r with
    | none => return
    | some .folder => IO.FS.removeDirAll (← nameOf r)
    | some (.file _) => IO.FS.removeFile (← nameOf r)
  | .makeFolder r => do IO.FS.createDir (← nameOf r)
  | .putContent r content => do
    let name ← nameOf r
    IO.FS.writeBinFile (name ++ ".new") ⟨content.toArray⟩
    IO.FS.rename (name ++ ".new") name

/-- Prints a text, which can be encoded. -/
def printText (stream : IO.FS.Stream) (t : Text) : IO Unit := do
  stream.putStr ((t.toString?).getD "")
  stream.flush

/-- The seconds since the start of 1970: the start of the system and the time since then. -/
def now : IO Nat := do
  let started := (← IO.FS.readFile "/proc/stat").splitOn "\n" |>.findSome? fun line =>
    if line.startsWith "btime " then (line.drop 6).toString.toNat? else none
  return started.getD 0 + (← IO.monoMsNow) / 1000

/-- The room that the stack leaves for containers. -/
def room : Json.Room := ⟨985, by decide⟩

/-- The setting of the log, and the environment of a command. -/
def environment : IO (Level × Env) := do
  let text (name : String) : IO (Option Text) := return (← IO.getEnv name).map Text.ofString
  let here := Path.ofText ((← IO.currentDir).toString : String)
  let random ← (List.range 4).mapM fun _ => IO.getRandomBytes 16
  let ids := random.map fun bytes => Identifier.ofBytes bytes.toList
  return (Level.ofSetting (← text "SPELLBOOK_LOG_LEVEL"), {
    here := Disk.names here
    home := (← text "HOME").getD "/"
    bookSetting := ← text "SPELLBOOK_SPELLS_FILE"
    time := (Date.ofSeconds (← now)).text
    freshId := fun n => ids.getD (n % 4) []
    web := fun _ => .broken "there is no way to the web from here"
    charsets := fun _ => none
    followsMoves := true
    rooms := ⟨room, room, room⟩
    marks := .simple })

/-- Runs an act on the disk, with what lies at some routes loaded first. As long as the act changes
what was not loaded, it is loaded and the act runs again. -/
def perform {α : Type} (rounds : Nat) (env : Env) (input : Bytes) (routes : List Route)
    (act : Act α) : IO (Disk × Except Failure α × State) := do
  let old ← routes.foldlM load ⟨[]⟩
  let (outcome, s) := act.run env ⟨old, [], 0, input, []⟩
  let touched := (s.disk.entries.map Prod.fst).filter fun r => (old.find? r).isNone && !routes.contains r
  match rounds with
  | rounds + 1 =>
    if touched.isEmpty then return (old, outcome, s)
    else perform rounds env input (routes ++ touched) act
  | 0 => return (old, outcome, s)

/-- The folders that a command has replaced as a whole. -/
def replaced (env : Env) (old new : Disk) : Command → List Route
  | .generate _ out _ true =>
    let folder := Disk.resolve env.here (Path.ofText out)
    (new.entries.map Prod.fst).filter fun r =>
      r.dropLast = folder && new.find? r = some .folder && old.find? r = some .folder
        && new.hasBelow r
  | _ => []

/-- Brings a disk about, and prints the output and the log. -/
def settle (level : Level) (old : Disk) (gone : List Route) (s : State) : IO Unit := do
  let old ← gone.foldlM (fun (old : Disk) r => do
    apply (.remove r)
    return old.removeTree r) old
  (Disk.changes old s.disk).forM apply
  s.log.forM fun r => do
    if level.rank ≤ r.level.rank then
      match r.line? room with
      | .ok line => printText (← IO.getStderr) (line ++ "\n")
      | .error fault => printText (← IO.getStderr) (fault.message ++ "\n")
  printText (← IO.getStdout) s.output

/-- The routes that a command names. -/
def routesOf (env : Env) (command : Command) : List Route :=
  let file (t : Text) : Route := Disk.resolve env.here (Path.ofText t)
  let book (place : Option Text) : Route := Disk.resolve env.here (Book.pathOf env place)
  env.here :: match command with
    | .validate source | .digest source _ => [file source]
    | .generate source out _ _ => [file source, file out]
    | .add source _ place => [file source, book place]
    | .list place | .display _ place | .remove _ place | .clear _ place | .serve place => [book place]
    | .new _ (some out) => [file out]
    | .new _ none | .examples => []

/-- Reads the input to its end. -/
partial def readAll (stream : IO.FS.Stream) (done : ByteArray) : IO ByteArray := do
  let more ← stream.read 65536
  if more.isEmpty then return done else readAll stream (done ++ more)

/-- Whether a command reads the input. -/
def readsInput : Command → Bool
  | .validate source | .generate source .. | .digest source _ | .add source .. => source = "-"
  | .clear isSure _ => !isSure
  | _ => false

/-- Answers messages until the input ends. -/
partial def converse (place : Option Text) (c : Conversation) : IO UInt32 := do
  let line ← (← IO.getStdin).getLine
  if line.isEmpty then return 0
  match Json.read room (line : Text) with
  | .ok (.obj message) =>
    let (level, env) ← environment
    let act := Conversation.take place c message
    let (old, outcome, s) ← perform 3 env [] (routesOf env (.serve place)) act
    settle level old [] s
    match outcome with
    | .ok (reply?, c) =>
      reply?.toList.forM fun reply => do printText (← IO.getStdout) (reply.asciiLine ++ "\n")
      converse place c
    | .error failure =>
      printText (← IO.getStderr) (failure.message ++ "\n")
      converse place c
  | _ => converse place c

/-- Runs a command and gives the code with which the program ends. -/
def runCommand (command : Command) : IO UInt32 := do
  let (level, env) ← environment
  let input ←
    if readsInput command then readAll (← IO.getStdin) .empty
    else pure .empty
  let (old, outcome, s) ← perform 3 env input.toList (routesOf env command) command.run
  settle level old (replaced env old s.disk command) s
  match outcome with
  | .ok code => return code.toUInt32
  | .error failure =>
    printText (← IO.getStderr) (failure.message ++ "\n")
    return 1

end Grimoire.Shell

/-- Runs the command that the words of the command line mean. -/
def main (words : List String) : IO UInt32 := do
  match Grimoire.Command.ofWords? (words.map Grimoire.Text.ofString) with
  | some (.serve place) =>
    let (level, env) ← Grimoire.Shell.environment
    let (_, s) := (Grimoire.Conversation.start place).run env ⟨⟨[]⟩, [], 0, [], []⟩
    Grimoire.Shell.settle level ⟨[]⟩ [] s
    Grimoire.Shell.converse place ⟨false⟩
  | some command => Grimoire.Shell.runCommand command
  | none =>
    Grimoire.Shell.printText (← IO.getStderr) "Usage: spellbook COMMAND [ARGUMENT] [OPTIONS]\n"
    return 2
