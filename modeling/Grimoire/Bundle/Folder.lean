import Grimoire.Act
import Grimoire.Bundle.Basic
import Grimoire.Spell.Wire

/-!
# Bundles as folders

A bundle is written as a folder with one file for each entry. The files are put into a folder beside the
target, which takes the place of the target in one step, so the target never holds a part of a bundle.

Main statement: `Bundle.paths_perm` (the paths that are given back are those of the entries).
-/

namespace Grimoire.Bundle

/-- Generates the bundle of a spell and notes it. A number with too many digits has no text. -/
def generate (s : Spell) : Act Bundle := do
  Act.note .debug .generator "generating bundle"
    [("spell", .str s.name), ("action", .str s.action.kind)]
  if !s.isWritable then throw (.unread (.tooManyDigits none))
  return ofSpell s

/-- The path of an entry below a folder. A name that would lead elsewhere is refused. -/
def entryPath (folder : Path) (name : Text) : Except Failure Path :=
  if Path.isPlainName name then .ok (folder.below name) else .error (.notPlainName name)

/-- Writes entries as files into a folder. -/
def writeEntries (folder : Path) : List (Text × Text) → Act Unit
  | [] => pure ()
  | (name, t) :: rest => do
    Act.writeText (← Act.ofExcept (entryPath folder name)) t
    writeEntries folder rest

/-- The paths of the entries below a folder, sorted by name. -/
def paths (folder : Path) (bundle : Bundle) : List Path :=
  bundle.sorted.keys.map fun name => ⟨folder.anchor, folder.names ++ [name]⟩

/-- Makes an empty folder beside a route, under a name of its own, and gives its route. -/
def makeFolderBeside (target : Route) : Act Route := do
  let name := (← Act.state).disk.freeName target.dropLast
    ("." ++ Name.text (target.getLast?.getD []) ++ "-") []
  let beside := target.dropLast ++ [Name.ofText name]
  Act.change fun disk here => disk.makeFolder here (Disk.pathOf beside)
  return beside

/-- Takes away the folder at a route, with all that is in it; a file stays. -/
def clearFolder (target : Route) : Act Unit := do
  match (← Act.state).disk.find? target with
  | none => pure ()
  | some (.file _) => throw (.disk ⟨.notFolder, Disk.pathOf target⟩)
  | some .folder => Act.removeTree target

/-- Writes a bundle as a folder, and gives the paths of the files, with the names as they were given. A
target that is there is replaced only by force. -/
def writeFolder (target : Path) (bundle : Bundle) (force : Bool) : Act (List Path) := do
  let env ← Act.env
  if let some error := Disk.refusedOn? target then throw (.disk error)
  let route := Disk.resolve env.here target
  let whole := Disk.pathOf route
  let isTaken ← Act.ask fun disk here => disk.has here whole
  if isTaken && !force then throw (.folderTaken (Disk.absolute env.here target))
  Act.makeFolders whole.parent
  let beside ← makeFolderBeside route
  Act.orRemove beside do
    writeEntries (Disk.pathOf beside) bundle
    clearFolder route
    Act.change fun disk here => disk.replace here beside whole
  return paths (Disk.absolute env.here target) bundle

theorem paths_perm (folder : Path) (bundle : Bundle) :
    (paths folder bundle).Perm
      (bundle.keys.map fun name => ⟨folder.anchor, folder.names ++ [name]⟩) :=
  ((List.mergeSort_perm _ _).map _).map _

end Grimoire.Bundle
