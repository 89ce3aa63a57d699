import Grimoire.Act
import Grimoire.Book.Basic
import Grimoire.Json.Reader

/-!
# The file of a book

A book is kept in one file. Loading takes what it can: a file that is missing or damaged holds an empty
book, and elements that are no spells are passed over. Saving writes the whole book beside the file and
then puts it in the place of the file in one step.

Main statements: `Book.found_notFound` and `Book.found_isFolder` (what is found where no file lies).
-/

namespace Grimoire.Book

/-- The folders and the name of the file of a book below the folder that one is in. -/
def fileNames : List Text := [".kiro", "data", "spells.json"]

/-- A setting with the home folder in the place of a tilde. -/
def expandHome (home : Text) (t : Text) : Text :=
  match t with
  | .scalar '~' :: rest =>
    match rest with
    | [] | .scalar '/' :: _ =>
      let whole := (home.reverse.dropWhile (· = .scalar '/')).reverse ++ rest
      if whole = [] then "/" else whole
    | _ => t
  | _ => t

/-- Where a book is kept unless another place is asked for. -/
def defaultPath (env : Env) : Path :=
  match env.bookSetting with
  | some (c :: t) => Path.ofText (expandHome env.home (c :: t))
  | _ => ⟨.root, env.here.map Name.text ++ fileNames⟩

/-- Where a book is kept. -/
def pathOf (env : Env) (place : Option Text) : Path :=
  match place with
  | some t => Path.ofText t
  | none => defaultPath env

/-- What is found where a book is kept. -/
inductive Found where
  | nothing
  | unreadable (error : Text)
  | notArray
  | items (items : List Json)

/-- What a text holds. -/
def foundInText (room : Nat) (t : Text) : Except Failure Found :=
  match Json.read room (Text.unixNewlines t) with
  | .ok (.arr items) => .ok (.items items)
  | .ok _ => .ok .notArray
  | .error (.malformed e) => .ok (.unreadable e.message)
  | .error e => .error (.unread e)

/-- What is found, given the bytes of the file or what stands in the way of them. -/
def found (room : Nat) : Except DiskError Bytes → Except Failure Found
  | .ok bytes =>
    match Utf8.decode bytes with
    | .ok t => foundInText room t
    | .error e => .ok (.unreadable e.message)
  | .error ⟨.notFound, _⟩ => .ok .nothing
  | .error e => if e.obstacle.number?.isNone then .error (.disk e) else .ok (.unreadable e.message)

/-- Checks a candidate and notes when it is no spell. -/
def check (candidate : Json) : Act Spell :=
  match Spell.check candidate with
  | .valid s => pure s
  | .invalid first rest => do
    Act.note .debug .validator "spell rejected" [("errors", .int (rest.length + 1))]
    throw (.invalid first rest)

/-- Notes that an element of a file is no spell. -/
def noteRejected (p : Path) (position problems : Nat) : Act Unit := do
  Act.note .debug .validator "spell rejected" [("errors", .int problems)]
  Act.note .warning .storage "skipping invalid spell"
    [("path", .str p.text), ("index", .int position), ("errors", .int problems)]

/-- Loads the book at a path, and tells what was passed over. -/
def loadFrom (p : Path) : Act Reading := do
  let env ← Act.env
  match found env.rooms.book ((← Act.state).disk.contentAt env.here p) with
  | .error failure => throw failure
  | .ok .nothing => pure ⟨[], []⟩
  | .ok (.unreadable error) =>
    Act.note .warning .storage "unreadable spells file"
      [("path", .str p.text), ("error", .str error)]
    pure ⟨[], []⟩
  | .ok .notArray =>
    Act.note .warning .storage "spells file is not a JSON array" [("path", .str p.text)]
    pure ⟨[], []⟩
  | .ok (.items items) =>
    let reading := ofItems items
    reading.rejected.forM fun (position, problems) => noteRejected p position problems
    pure reading

/-- Loads the book at a place. -/
def load (place : Option Text) : Act Book := do
  return (← loadFrom (pathOf (← Act.env) place)).book

/-- Makes an empty file beside a path, under a name of its own, and gives its route. -/
def makeBeside (p : Path) : Act Route := do
  let env ← Act.env
  let folder := Disk.resolve env.here p.parent
  let name := (← Act.state).disk.freeName folder ("." ++ p.name ++ ".") ".tmp"
  Act.change fun disk _ => disk.putContent folder ⟨.here, [name]⟩ []
  return folder ++ [Name.ofText name]

/-- Saves a book at a path. -/
def saveTo (p : Path) (book : Book) : Act Unit := do
  Act.makeFolders p.parent
  let t ← Act.ofExcept (text book)
  let temporary ← makeBeside p
  Act.orRemove temporary do
    Act.place temporary (.file (← Act.encode t))
    Act.change fun disk here => disk.replace here temporary p
  Act.note .debug .storage "saved spells"
    [("path", .str p.text), ("count", .int book.length)]

/-- Saves a book at a place, and gives the path. -/
def save (place : Option Text) (book : Book) : Act Path := do
  let p := pathOf (← Act.env) place
  saveTo p book
  return p

/-- Takes away the file of a book. -/
def clear (p : Path) : Act Unit := Act.change fun disk here => disk.removeFile here p

theorem found_notFound (room : Nat) (p : Path) : found room (.error ⟨.notFound, p⟩) = .ok .nothing := rfl

theorem found_isFolder (room : Nat) (p : Path) :
    found room (.error ⟨.isFolder, p⟩) = .ok (.unreadable (DiskError.message ⟨.isFolder, p⟩)) := rfl

end Grimoire.Book
