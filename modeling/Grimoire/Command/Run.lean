import Grimoire.Bundle.Archive
import Grimoire.Bundle.Folder
import Grimoire.Catalog
import Grimoire.Command.Basic
import Grimoire.Command.Report
import Grimoire.Digest.Bundle
import Grimoire.Source.Document
import Grimoire.Tool.Conversation

/-!
# Running commands

Each command is an act that gives the code with which the program ends. Failures that are expected are
reported and give code 1; all others are left to the caller.

Main statement: `Command.run_examples` (the list of examples needs no disk).
-/

namespace Grimoire.Command

/-- The spell in the document of a source. -/
def loadSpell (source : Text) : Act Spell := do Book.check (← Source.read source)

/-- Checks a document and tells what is odd about it. -/
def runValidate (source : Text) : Act Nat :=
  orReport (loadSpell source) fun s => do
    sayWarnings s
    say ("[green]Valid spell:[/green] " ++ s.name ++ " (" ++ s.action.kind ++ ")")
    return 0

/-- Whether a failure says that something is there already. -/
def isTaken : Failure → Bool
  | .folderTaken _ => true
  | .disk e => e.obstacle = .taken
  | _ => false

/-- The row of a file: its path and the size of its text. -/
def fileRow (bundle : Bundle) (p : Path) : Act (List Text) := do
  let bytes ← Act.encode ((Entries.find? p.name bundle).getD [])
  return [p.text, Text.ofNat bytes.length]

/-- The row of an archive, if one is asked for. -/
def archiveRows (folder : Path) (bundle : Bundle) (name : Text) (isAsked : Bool) :
    Act (List (List Text)) := do
  if isAsked then
    let (p, archive) ← Bundle.writeArchive folder bundle (some name)
    return [[p.text, Text.ofNat archive.bytes.length]]
  else return []

/-- Writes the bundle of a spell below a folder. -/
def runGenerate (source out : Text) (alsoArchive force : Bool) : Act Nat :=
  orReport (loadSpell source) fun s => do
    sayWarnings s
    let bundle ← Bundle.generate s
    let folder := Path.ofText out
    match ← Act.attempt (Bundle.writeFolder (folder.below s.name) bundle force) with
    | .error failure =>
      if isTaken failure then
        say ("[red]Error:[/red] " ++ failure.message ++ " (use --force to replace it)")
        return 1
      else throw failure
    | .ok written =>
      let rows ← written.mapM (fileRow bundle)
      let more ← archiveRows folder bundle s.name alsoArchive
      printTable ⟨"Generated " ++ s.name, [column "File", numberColumn "Bytes"], rows ++ more⟩
      return 0

/-- The digest of a bundle. -/
def digestOf (bundle : Bundle) : Except Failure Text :=
  match bundle.digest with
  | .ok d => .ok d
  | .error e => .error (.unencodable e)

/-- Why the digest of a bundle is not the expected one. -/
def digestFailure? (bundle : Bundle) (expected : Text) : Option Failure :=
  match digestOf bundle with
  | .error failure => some failure
  | .ok d =>
    if Digest.isExpected d expected then none
    else some (.digestMismatch d (Digest.normalize expected))

/-- Prints the digest of the bundle of a spell, if it is the expected one. -/
def runDigest (source : Text) (expected : Option Text) : Act Nat :=
  orReport (loadSpell source) fun s => do
    let bundle ← Bundle.generate s
    match expected.bind (digestFailure? bundle) with
    | some failure =>
      say ("[red]Error:[/red] " ++ failure.message)
      return 1
    | none =>
      printLine (← Act.ofExcept (digestOf bundle))
      return 0

/-- A candidate with an identifier: that of the stored spell with its name, if that one is to be
replaced, else its own, else a new one. -/
def identified (candidate : Json) (book : Book) (force : Bool) : Act Json :=
  match candidate with
  | .obj members => do
    let name := ((Entries.find? "name" members).map Json.describeBare).getD []
    match book.named? name, force with
    | some old, true => return .obj (Entries.put "id" (.str old.id) members)
    | _, _ =>
      let id ← Act.drawId
      return .obj (if Entries.hasKey "id" members then members
        else Entries.put "id" (.str id) members)
  | _ => return candidate

/-- Why a spell cannot be added to a book without replacing another one. -/
def clash? (s : Spell) (book : Book) : Option Failure :=
  match book.named? s.name with
  | some old => some (.duplicateName s.name old.id)
  | none => if Entries.hasKey s.id book then some (.duplicateId s.id) else none

/-- Adds the spell in a document to the book at a place, and gives the spell and the path. -/
def addSpell (source : Text) (force : Bool) (place : Option Text) : Act (Spell × Path) := do
  let candidate ← Source.read source
  let book ← Book.load place
  let s ← Book.check (← identified candidate book force)
  match clash? s book, force with
  | some failure, false => throw failure
  | _, _ =>
    let p ← Book.save place (book.add s)
    return (s, p)

/-- Adds the spell in a document to a book. -/
def runAdd (source : Text) (force : Bool) (place : Option Text) : Act Nat :=
  orReport (addSpell source force place) fun (s, p) => do
    sayWarnings s
    say ("[green]Saved:[/green] " ++ s.name ++ " (id=" ++ s.id ++ ") -> " ++ p.text)
    return 0

/-- Lists the spells of a book. -/
def runBookList (place : Option Text) : Act Nat := do
  let p := Book.pathOf (← Act.env) place
  let reading ← Book.loadFrom p
  printTable (bookTable p reading.book)
  if !reading.rejected.isEmpty then say (skippedLine reading.rejected.length)
  return 0

/-- The book at a place and the spell in it that a key means. -/
def lookUp (key : Text) (place : Option Text) : Act (Book × Spell) := do
  let book ← Book.load place
  match book.lookUp? key with
  | some s => return (book, s)
  | none => throw (.unknownSpell key)

/-- Prints the written form of a spell. -/
def runDisplay (key : Text) (place : Option Text) : Act Nat :=
  orReport (lookUp key place) fun (_, s) => do
    printLine (← Act.ofExcept s.wire?).pretty
    return 0

/-- Removes a spell from a book. -/
def runRemove (key : Text) (place : Option Text) : Act Nat :=
  orReport (lookUp key place) fun (book, s) => do
    let _ ← Book.save place (Entries.erase s.id book)
    say ("[green]Removed:[/green] " ++ s.name)
    return 0

/-- Asks a question until one of the lines answers it. Where the lines end, there is no answer. -/
def confirm (question : Text) : List Text → Act (Option Bool)
  | [] => do
    Act.print (question ++ " [y/N]: ")
    return none
  | line :: lines => do
    Act.print (question ++ " [y/N]: " ++ line ++ "\n")
    let answer := Text.trim (Text.lower line)
    if answer = "y" ∨ answer = "yes" then return some true
    else if answer = "n" ∨ answer = "no" ∨ answer = "" then return some false
    else
      Act.print "Error: invalid input\n"
      confirm question lines

/-- The lines of the input. -/
def inputLines : Act (List Text) := do
  let t ← Act.ofExcept (Source.localText (← Act.takeInput))
  let lines := Text.lines t
  return if lines.getLast? = some [] then lines.dropLast else lines

/-- Deletes the file of a book, after asking unless that is not wanted. -/
def runClear (isSure : Bool) (place : Option Text) : Act Nat := do
  let p := Book.pathOf (← Act.env) place
  let isConfirmed ←
    if isSure then pure (some true)
    else do confirm ("Delete " ++ p.text ++ "?") (← inputLines)
  if isConfirmed = some true then
    Book.clear p
    say ("[green]Cleared:[/green] " ++ p.text)
    return 0
  else
    Act.print "Aborted.\n"
    return 1

/-- The row of an example. -/
def exampleRow (example_ : Text × Members) : List Text :=
  let member (key : Text) (members : Members) : Json := (Entries.find? key members).getD .null
  let action := ((member "action" example_.2).members?).getD []
  [example_.1, ((member "type" action).text?).getD [],
    ((member "description" example_.2).text?).getD []]

/-- Lists the examples. -/
def runExamples : Act Nat := do
  printTable ⟨"Example spells", [nameColumn, column "Action", column "Description"],
    (Entries.sorted Catalog.examples).map exampleRow⟩
  return 0

/-- The text of an example with an identifier. -/
def exampleText (id : Text) (candidate : Members) : Text :=
  Json.pretty (.obj (Entries.putAll [("id", .str id)] candidate))

/-- Prints an example as a start of a spell, or writes it into a file. -/
def runNew (name : Text) (out : Option Text) : Act Nat := do
  let id ← Act.drawId
  orReport (Act.ofExcept (Catalog.find name)) fun candidate => do
    match out with
    | some (c :: path) =>
      Act.writeText (Path.ofText (c :: path)) (exampleText id candidate ++ "\n")
      say ("[green]Spell written:[/green] " ++ c :: path)
    | _ => printLine (exampleText id candidate)
    return 0

/-- Answers the messages in the input, one a line. -/
def runServe (place : Option Text) : Act Nat := do
  let lines ← inputLines
  let room := (← Act.env).rooms.request
  let messages := lines.filterMap fun line => (Json.read room line).toOption.bind Json.members?
  let replies ← Conversation.serve place messages
  replies.forM fun reply => printLine reply.asciiLine
  return 0

/-- Runs a command and gives the code with which the program ends. -/
def run : Command → Act Nat
  | .validate source => runValidate source
  | .generate source out alsoArchive force => runGenerate source out alsoArchive force
  | .digest source expected => runDigest source expected
  | .add source force place => runAdd source force place
  | .list place => runBookList place
  | .display key place => runDisplay key place
  | .remove key place => runRemove key place
  | .clear isSure place => runClear isSure place
  | .examples => runExamples
  | .new model out => runNew model out
  | .serve place => runServe place

theorem run_examples : run .examples = runExamples := rfl

end Grimoire.Command
