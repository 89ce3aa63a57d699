import Grimoire.Act
import Grimoire.Archive.Basic
import Grimoire.Bundle.Basic
import Grimoire.Digest.Sha256

/-!
# Bundles as archives

A bundle is written as an archive whose members are its entries, sorted by name, and beside it a file
with the digest of the archive.

Main statement: `Bundle.archiveName_suffixed` (a name may be given with or without the ending).
-/

namespace Grimoire.Bundle

/-- The ending of an archive. -/
def archiveEnding : Text := ".zip"

/-- The name of an archive without its ending, given the name that was asked for. -/
def archiveName (name : Option Text) : Text :=
  let name := match name with
    | some (c :: t) => c :: t
    | _ => "bundle"
  if archiveEnding.isSuffixOf name then name.take (name.length - archiveEnding.length) else name

/-- What stands before the first zero of a key. -/
def beforeZero (key : Text) : Text := key.takeWhile (· ≠ .scalar '\x00')

/-- The member that an entry becomes. Its name is the entry's key up to the first zero. -/
def member (entry : Text × Text) : Except Failure Member :=
  let (key, t) := entry
  let name := beforeZero key
  if Path.isPlainName key then
    match Utf8.encode t, Utf8.encode name with
    | none, _ => .error (.unencodable (Utf8.encodeError t))
    | _, none => .error (.unencodable (Utf8.encodeError name))
    | some content, some bytes =>
      if Archive.nameLimit < bytes.length then .error .longName else .ok ⟨name, content⟩
  else .error (.notPlainName key)

/-- The members that entries become, up to the first entry that fails. -/
def members : List (Text × Text) → List Member × Except Failure Unit
  | [] => ([], .ok ())
  | entry :: rest =>
    match member entry with
    | .error failure => ([], .error failure)
    | .ok m =>
      let (ms, outcome) := members rest
      (m :: ms, outcome)

/-- Writes a bundle as an archive into a folder, and gives its path and the archive. -/
def writeArchive (folder : Path) (bundle : Bundle) (name : Option Text) : Act (Path × Archive) := do
  Act.makeFolders folder
  let p := folder.below (archiveName name ++ archiveEnding)
  Act.change fun disk here => disk.putContent here p []
  let (ms, outcome) := members bundle.sorted
  let archive : Archive := ⟨ms⟩
  Act.change fun disk here => disk.putContent here p archive.bytes
  Act.ofExcept outcome
  Act.writeText (p.withEnding ".zip.sha256") (Sha256.hexDigest archive.bytes)
  return (p, archive)

theorem archiveName_suffixed {name : Text} (h : name ≠ []) (hplain : ¬archiveEnding <:+ name) :
    archiveName (some (name ++ archiveEnding)) = archiveName (some name) := by
  cases name with
  | nil => exact absurd rfl h
  | cons c t =>
    have hsuffix : archiveEnding.isSuffixOf ((c :: t) ++ archiveEnding) = true := by
      rw [List.isSuffixOf_iff_suffix]
      exact List.suffix_append _ _
    have hno : archiveEnding.isSuffixOf (c :: t) = false := by
      rw [Bool.eq_false_iff]
      exact fun hs => hplain (List.isSuffixOf_iff_suffix.mp hs)
    have htake : ((c :: t) ++ archiveEnding).take
        (((c :: t) ++ archiveEnding).length - archiveEnding.length) = c :: t := by
      rw [List.length_append, Nat.add_sub_cancel, List.take_left]
    rw [List.cons_append] at hsuffix htake
    simp only [archiveName, List.cons_append, hsuffix, if_true, hno, htake]
    rfl

end Grimoire.Bundle
