import Grimoire.Archive.Deflate
import Grimoire.Date
import Grimoire.Digest.Crc32
import Grimoire.Text.CodePoint

/-!
# Archives

An archive holds members, which are named contents, in order. Its bytes are those of a zip file: the
members, then the directory, then the end record. All members have one date and one mode, so that the
bytes depend on nothing but the members.

Main statements: `Archive.length_localHeader` and `Archive.length_directoryHeader` (the room that the
headers of a member take beside its name).
-/

namespace Grimoire

/-- A named content. -/
structure Member where
  name : Text
  content : Bytes
  deriving DecidableEq

/-- Members in order. -/
structure Archive where
  members : List Member
  deriving DecidableEq

namespace Archive

/-- The date of every member: the first one that can be written. -/
def date : Date := ⟨1980, 1, 1, 0, 0, 0⟩

/-- The day of a date in sixteen bits. -/
def dayWord (d : Date) : Nat := (d.year - 1980) <<< 9 ||| d.month <<< 5 ||| d.day

/-- The time of a date in sixteen bits. -/
def timeWord (d : Date) : Nat := d.hour <<< 11 ||| d.minute <<< 5 ||| d.second / 2

/-- The mode of every member, as external attributes: read by all and written by the owner. -/
def attributes : Nat := 0o644 <<< 16

/-- The number of the method of compression. -/
def method : Nat := 8

/-- The greatest number of bytes of a name: it has to fit into two bytes. -/
def nameLimit : Nat := 65535

/-- A number on `width` bytes, the least significant byte first. -/
def littleEndian : (width n : Nat) → Bytes
  | 0, _ => []
  | width + 1, n => UInt8.ofNat n :: littleEndian width (n / 256)

/-- The bytes of a name. -/
def nameBytes (name : Text) : Bytes := (Utf8.encode name).getD []

/-- Whether a name needs the flag of a name in UTF-8. -/
def isAscii (name : Text) : Bool := name.all fun c => c.val < 128

/-- The part that both headers of a member share: flags, method, time, date, checksum and sizes. -/
def facts (m : Member) : Bytes :=
  littleEndian 2 (if isAscii m.name then 0 else 0x800) ++ littleEndian 2 method
    ++ littleEndian 2 (timeWord date) ++ littleEndian 2 (dayWord date)
    ++ littleEndian 4 (Crc32.checksum m.content).toNat
    ++ littleEndian 4 (Deflate.compress m.content).length ++ littleEndian 4 m.content.length
    ++ littleEndian 2 (nameBytes m.name).length ++ littleEndian 2 0

/-- The header before the content of a member. -/
def localHeader (m : Member) : Bytes :=
  [0x50, 0x4b, 3, 4] ++ littleEndian 2 20 ++ facts m ++ nameBytes m.name

/-- A member as it lies in the archive. -/
def memberBytes (m : Member) : Bytes := localHeader m ++ Deflate.compress m.content

/-- The header of a member in the directory, given where the member starts. -/
def directoryHeader (start : Nat) (m : Member) : Bytes :=
  [0x50, 0x4b, 1, 2] ++ littleEndian 1 20 ++ littleEndian 1 3 ++ littleEndian 2 20 ++ facts m
    ++ littleEndian 2 0 ++ littleEndian 2 0 ++ littleEndian 2 0
    ++ littleEndian 4 attributes ++ littleEndian 4 start ++ nameBytes m.name

/-- The directory of members that lie one after the other from a start on. -/
def directory (start : Nat) : List Member → Bytes
  | [] => []
  | m :: rest => directoryHeader start m ++ directory (start + (memberBytes m).length) rest

/-- The end record. -/
def endRecord (count size start : Nat) : Bytes :=
  [0x50, 0x4b, 5, 6] ++ littleEndian 2 0 ++ littleEndian 2 0 ++ littleEndian 2 count
    ++ littleEndian 2 count ++ littleEndian 4 size ++ littleEndian 4 start ++ littleEndian 2 0

/-- The bytes of an archive. -/
def bytes (a : Archive) : Bytes :=
  let contents := a.members.flatMap memberBytes
  let listing := directory 0 a.members
  contents ++ listing ++ endRecord a.members.length listing.length contents.length

theorem length_littleEndian (width n : Nat) : (littleEndian width n).length = width := by
  induction width generalizing n with
  | zero => rfl
  | succ width ih => simp [littleEndian, ih]

theorem length_facts (m : Member) : (facts m).length = 24 := by
  simp [facts, length_littleEndian]

theorem length_localHeader (m : Member) :
    (localHeader m).length = 30 + (nameBytes m.name).length := by
  simp [localHeader, length_facts, length_littleEndian]
  omega

theorem length_directoryHeader (start : Nat) (m : Member) :
    (directoryHeader start m).length = 46 + (nameBytes m.name).length := by
  simp [directoryHeader, length_facts, length_littleEndian]
  omega

end Archive

end Grimoire
