import Grimoire.Proofs.Archive.Reading

/-!
# Archives can be listed

Behind its members an archive has a directory, whose headers say again what the members are called and
also which date and which mode they have. A reader that goes through both finds each member that was put
in, with the one date and the one mode of all members (`Archive.records?_bytes`).
-/

namespace Grimoire.Archive

-- the power of natural numbers is that of the core library, whatever else is in scope
attribute [local instance (high)] instPowNat

/-- A member with what the directory says of it. -/
structure Record where
  member : Member
  date : Date
  mode : Nat
  deriving DecidableEq

/-! ## Reading -/

/-- The date that two words stand for. -/
def dateOf (day time : Nat) : Date :=
  ⟨1980 + day / 512, day / 32 % 16, day % 32, time / 2048, time / 32 % 64, time % 32 * 2⟩

/-- Reads the header at the front of a directory, which has to be that of a member: its date, its mode
and what is behind it. -/
def readHeader? (m : Member) (bytes : Bytes) : Option (Record × Bytes) :=
  match Utf8.decode ((bytes.drop 46).take (field 28 2 bytes)) with
  | .ok name =>
    if field 0 4 bytes = 0x02014b50 ∧ name = m.name ∧ (isAscii name ∨ field 8 2 bytes = 0x800) then
      some (⟨m, dateOf (field 14 2 bytes) (field 12 2 bytes), field 40 2 bytes⟩,
        bytes.drop (46 + field 28 2 bytes + field 30 2 bytes + field 32 2 bytes))
    else none
  | .error _ => none

/-- Reads a directory, which has to list members up to the end record. -/
def readDirectory? : List Member → Bytes → Option (List Record)
  | [], bytes => if field 0 4 bytes = 0x06054b50 then some [] else none
  | m :: ms, bytes => do
    let (record, rest) ← readHeader? m bytes
    let records ← readDirectory? ms rest
    return record :: records

/-- What is behind a number of members. -/
def dropMembers? : Nat → Bytes → Option Bytes
  | 0, bytes => some bytes
  | count + 1, bytes => (readMember? bytes).bind fun (_, rest) => dropMembers? count rest

/-- Reads an archive: its members, and the directory behind them. -/
def records? (bytes : Bytes) : Option (List Record) := do
  let ms ← read? bytes
  let rest ← dropMembers? ms.length bytes
  readDirectory? ms rest

/-! ## Headers -/

/-- The bytes of a header in the directory are numbers one after the other, then the name. -/
theorem directoryHeader_append (start : Nat) (m : Member) (rest : Bytes) :
    directoryHeader start m ++ rest
      = littleEndian 4 0x02014b50 ++ (littleEndian 1 20 ++ (littleEndian 1 3 ++ (littleEndian 2 20
      ++ (littleEndian 2 (if isAscii m.name then 0 else 0x800) ++ (littleEndian 2 method
      ++ (littleEndian 2 (timeWord date) ++ (littleEndian 2 (dayWord date)
      ++ (littleEndian 4 (Crc32.checksum m.content).toNat
      ++ (littleEndian 4 (Deflate.compress m.content).length
      ++ (littleEndian 4 m.content.length ++ (littleEndian 2 (nameBytes m.name).length
      ++ (littleEndian 2 0 ++ (littleEndian 2 0 ++ (littleEndian 2 0 ++ (littleEndian 2 0
      ++ (littleEndian 2 0 ++ (littleEndian 2 0o644 ++ (littleEndian 4 start
      ++ (nameBytes m.name ++ rest))))))))))))))))))) := by
  have signature : [0x50, 0x4b, 1, 2] = littleEndian 4 0x02014b50 := by decide
  have mode : littleEndian 4 attributes = littleEndian 2 0 ++ littleEndian 2 0o644 := by decide
  simp only [directoryHeader, facts, signature, mode, List.append_assoc]

/-- What the fields of a header in the directory say. -/
structure Lists (m : Member) (bytes : Bytes) : Prop where
  signature : field 0 4 bytes = 0x02014b50
  flags : field 8 2 bytes = if isAscii m.name then 0 else 0x800
  time : field 12 2 bytes = timeWord date
  day : field 14 2 bytes = dayWord date
  nameLength : field 28 2 bytes = (nameBytes m.name).length
  extraLength : field 30 2 bytes = 0
  commentLength : field 32 2 bytes = 0
  mode : field 40 2 bytes = 0o644

theorem lists_directoryHeader {m : Member} (brief : (nameBytes m.name).length < 65536) (start : Nat)
    (rest : Bytes) : Lists m (directoryHeader start m ++ rest) := by
  rw [directoryHeader_append]
  constructor <;>
    simp (disch := decide) only [field, drop_littleEndian, Nat.reduceSub, List.drop_zero,
      take_littleEndian, littleNumber_littleEndian, Nat.reducePow]
  · split <;> rfl
  · rfl
  · rfl
  · exact Nat.mod_eq_of_lt brief

/-- The words of the date stand for the date. -/
theorem dateOf_date : dateOf (dayWord date) (timeWord date) = date := by decide

theorem readHeader?_directoryHeader {m : Member} (named : IsNamed m) (start : Nat) (rest : Bytes) :
    readHeader? m (directoryHeader start m ++ rest) = some (⟨m, date, 0o644⟩, rest) := by
  have header := lists_directoryHeader named.2 start rest
  have behind : (directoryHeader start m ++ rest).drop 46 = nameBytes m.name ++ rest := by
    rw [directoryHeader_append]
    simp (disch := decide) only [drop_littleEndian, Nat.reduceSub, List.drop_zero]
  have flagged : isAscii m.name ∨ field 8 2 (directoryHeader start m ++ rest) = 0x800 := by
    rw [header.flags]
    by_cases ascii : isAscii m.name
    · exact .inl ascii
    · exact .inr (if_neg ascii)
  rw [readHeader?, header.nameLength, header.extraLength, header.commentLength, header.day,
    header.time, header.mode, dateOf_date, Nat.add_zero, ← List.drop_drop, behind, List.take_left,
    List.drop_left, Utf8.decode_encode named.encode]
  exact if_pos ⟨header.signature, rfl, flagged⟩

/-! ## The directory -/

theorem readDirectory?_append {ms : List Member} (named : ∀ m ∈ ms, IsNamed m) {rest : Bytes}
    (ends : field 0 4 rest = 0x06054b50) (start : Nat) :
    readDirectory? ms (directory start ms ++ rest) = some (ms.map fun m => ⟨m, date, 0o644⟩) := by
  induction ms generalizing start with
  | nil => exact if_pos ends
  | cons m ms ih =>
    rw [List.forall_mem_cons] at named
    rw [directory, List.append_assoc, readDirectory?, readHeader?_directoryHeader named.1]
    dsimp only [Option.bind_eq_bind, Option.bind_some]
    rw [ih named.2]
    rfl

theorem dropMembers?_append {ms : List Member} (named : ∀ m ∈ ms, IsNamed m) (rest : Bytes) :
    dropMembers? ms.length (ms.flatMap memberBytes ++ rest) = some rest := by
  induction ms with
  | nil => rfl
  | cons m ms ih =>
    rw [List.forall_mem_cons] at named
    rw [List.length_cons, List.flatMap_cons, List.append_assoc, dropMembers?,
      readMember?_memberBytes named.1]
    exact ih named.2

/-- What is listed in the bytes of an archive are its members, with the date and the mode of all. -/
theorem records?_bytes {a : Archive} (named : ∀ m ∈ a.members, IsNamed m) :
    records? a.bytes = some (a.members.map fun m => ⟨m, date, 0o644⟩) := by
  have last (count size start : Nat) : field 0 4 (endRecord count size start) = 0x06054b50 := by
    have signature : [0x50, 0x4b, 5, 6] = littleEndian 4 0x06054b50 := by decide
    simp only [endRecord, signature, List.append_assoc]
    exact field_signature _ (by decide) _
  rw [records?, read?_bytes named, bytes, List.append_assoc]
  dsimp only [Option.bind_eq_bind, Option.bind_some]
  rw [dropMembers?_append named]
  exact readDirectory?_append named (last _ _ _) 0

end Grimoire.Archive
