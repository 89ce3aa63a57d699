import Grimoire.Archive.Basic
import Grimoire.Proofs.Archive.Inflating
import Grimoire.Proofs.Text.Utf8

/-!
# Archives can be read

A reader goes through an archive from the front: the header of a member says how long its name is, its
content shows itself where it ends, and the directory ends the members. What it finds in the bytes of
an archive are the members that were put in (`Archive.read?_bytes`).
-/

namespace Grimoire.Archive

-- the power of natural numbers is that of the core library, whatever else is in scope
attribute [local instance (high)] instPowNat

/-! ## Reading -/

/-- The number that bytes stand for, the least significant first. -/
def littleNumber (bytes : Bytes) : Nat := bytes.foldr (fun b n => b.toNat + 256 * n) 0

/-- The number on `width` bytes behind the first `start` bytes. -/
def field (start width : Nat) (bytes : Bytes) : Nat :=
  littleNumber ((bytes.drop start).take width)

/-- Reads the member at the front. Its name is in UTF-8, which has to be said unless it is in ASCII, and
its content has to have the check value in the header. -/
def readMember? (bytes : Bytes) : Option (Member × Bytes) :=
  if field 0 4 bytes = 0x04034b50 ∧ field 8 2 bytes = method then
    match Utf8.decode ((bytes.drop 30).take (field 26 2 bytes)),
      Deflate.inflate? (bytes.drop (30 + field 26 2 bytes + field 28 2 bytes)) with
    | .ok name, some (content, rest) =>
      if (isAscii name ∨ field 6 2 bytes = 0x800)
          ∧ field 14 4 bytes = (Crc32.checksum content).toNat then
        some (⟨name, content⟩, rest)
      else none
    | _, _ => none
  else none

/-- Reads members up to the directory, or up to the end record if there is no directory. -/
def read? (bytes : Bytes) : Option (List Member) :=
  if field 0 4 bytes = 0x02014b50 ∨ field 0 4 bytes = 0x06054b50 then some []
  else
    match readMember? bytes with
    | none => none
    | some (m, rest) =>
      if rest.length < bytes.length then (read? rest).map fun ms => m :: ms else none
termination_by bytes.length

/-! ## Fields -/

theorem littleNumber_littleEndian (width n : Nat) :
    littleNumber (littleEndian width n) = n % 256 ^ width := by
  induction width generalizing n with
  | zero => rw [Nat.pow_zero, Nat.mod_one]; rfl
  | succ width ih =>
    have first : littleNumber (littleEndian (width + 1) n)
        = (UInt8.ofNat n).toNat + 256 * littleNumber (littleEndian width (n / 256)) := rfl
    have power : 256 ^ (width + 1) = 256 * 256 ^ width := Nat.pow_succ'
    rw [first, ih, UInt8.toNat_ofNat', power, Nat.mod_mul]

theorem drop_littleEndian {width k : Nat} (less : width ≤ k) (n : Nat) (rest : Bytes) :
    (littleEndian width n ++ rest).drop k = rest.drop (k - width) := by
  rw [List.drop_append, List.drop_of_length_le (by rw [length_littleEndian]; exact less),
    length_littleEndian, List.nil_append]

theorem take_littleEndian (width n : Nat) (rest : Bytes) :
    (littleEndian width n ++ rest).take width = littleEndian width n :=
  List.take_left' (length_littleEndian width n)

/-- The bytes of a member are numbers one after the other, then the name and the content. -/
theorem memberBytes_append (m : Member) (rest : Bytes) : memberBytes m ++ rest
    = littleEndian 4 0x04034b50 ++ (littleEndian 2 20
      ++ (littleEndian 2 (if isAscii m.name then 0 else 0x800) ++ (littleEndian 2 method
      ++ (littleEndian 2 (timeWord date) ++ (littleEndian 2 (dayWord date)
      ++ (littleEndian 4 (Crc32.checksum m.content).toNat
      ++ (littleEndian 4 (Deflate.compress m.content).length
      ++ (littleEndian 4 m.content.length ++ (littleEndian 2 (nameBytes m.name).length
      ++ (littleEndian 2 0 ++ (nameBytes m.name
      ++ (Deflate.compress m.content ++ rest)))))))))))) := by
  have signature : [0x50, 0x4b, 3, 4] = littleEndian 4 0x04034b50 := by decide
  simp only [memberBytes, localHeader, facts, signature, List.append_assoc]

/-- What the fields of a header say. -/
structure Describes (m : Member) (bytes : Bytes) : Prop where
  signature : field 0 4 bytes = 0x04034b50
  flags : field 6 2 bytes = if isAscii m.name then 0 else 0x800
  method : field 8 2 bytes = method
  check : field 14 4 bytes = (Crc32.checksum m.content).toNat
  nameLength : field 26 2 bytes = (nameBytes m.name).length
  extraLength : field 28 2 bytes = 0

theorem describes_memberBytes {m : Member} (brief : (nameBytes m.name).length < 65536)
    (rest : Bytes) : Describes m (memberBytes m ++ rest) := by
  have check := (Crc32.checksum m.content).toNat_lt
  rw [memberBytes_append]
  constructor <;>
    simp (disch := decide) only [field, drop_littleEndian, Nat.reduceSub, List.drop_zero,
      take_littleEndian, littleNumber_littleEndian, Nat.reducePow]
  · split <;> rfl
  · rfl
  · exact Nat.mod_eq_of_lt check
  · exact Nat.mod_eq_of_lt brief

/-! ## Members -/

/-- Whether the name of a member can be written in its header. -/
def IsNamed (m : Member) : Prop := m.name.isEncodable = true ∧ (nameBytes m.name).length < 65536

theorem IsNamed.encode {m : Member} (named : IsNamed m) :
    Utf8.encode m.name = some (nameBytes m.name) := by
  obtain ⟨bytes, encoded⟩ :=
    Option.isSome_iff_exists.mp ((Utf8.isSome_encode m.name).trans named.1)
  rw [nameBytes, encoded, Option.getD_some]

theorem readMember?_memberBytes {m : Member} (named : IsNamed m) (rest : Bytes) :
    readMember? (memberBytes m ++ rest) = some (m, rest) := by
  have header := describes_memberBytes named.2 rest
  have behind : (memberBytes m ++ rest).drop 30
      = nameBytes m.name ++ (Deflate.compress m.content ++ rest) := by
    rw [memberBytes_append]
    simp (disch := decide) only [drop_littleEndian, Nat.reduceSub, List.drop_zero]
  have flagged : isAscii m.name ∨ field 6 2 (memberBytes m ++ rest) = 0x800 := by
    rw [header.flags]
    by_cases ascii : isAscii m.name
    · exact .inl ascii
    · exact .inr (if_neg ascii)
  rw [readMember?, if_pos ⟨header.signature, header.method⟩, header.nameLength, header.extraLength,
    Nat.add_zero, ← List.drop_drop, behind, List.take_left, List.drop_left,
    Utf8.decode_encode named.encode, Deflate.inflate_compress]
  dsimp only
  rw [if_pos ⟨flagged, header.check⟩]

theorem field_signature (n : Nat) (small : n < 256 ^ 4) (rest : Bytes) :
    field 0 4 (littleEndian 4 n ++ rest) = n := by
  rw [field, List.drop_zero, take_littleEndian, littleNumber_littleEndian, Nat.mod_eq_of_lt small]

/-- Where the members end, the directory or the end record starts. -/
theorem signature_directory (start : Nat) (ms : List Member) (count size start' : Nat) :
    field 0 4 (directory start ms ++ endRecord count size start') = 0x02014b50 ∨
      field 0 4 (directory start ms ++ endRecord count size start') = 0x06054b50 := by
  have first : [0x50, 0x4b, 1, 2] = littleEndian 4 0x02014b50 := by decide
  have last : [0x50, 0x4b, 5, 6] = littleEndian 4 0x06054b50 := by decide
  cases ms with
  | nil =>
    rw [directory, List.nil_append, endRecord, last]
    simp only [List.append_assoc]
    exact .inr (field_signature _ (by decide) _)
  | cons m ms =>
    rw [directory, directoryHeader, first]
    simp only [List.append_assoc]
    exact .inl (field_signature _ (by decide) _)

theorem read?_append {ms : List Member} (named : ∀ m ∈ ms, IsNamed m) {rest : Bytes}
    (ends : field 0 4 rest = 0x02014b50 ∨ field 0 4 rest = 0x06054b50) :
    read? (ms.flatMap memberBytes ++ rest) = some ms := by
  induction ms with
  | nil => rw [List.flatMap_nil, List.nil_append, read?, if_pos ends]
  | cons m ms ih =>
    rw [List.forall_mem_cons] at named
    have header := describes_memberBytes named.1.2 (ms.flatMap memberBytes ++ rest)
    have shorter : (ms.flatMap memberBytes ++ rest).length
        < (memberBytes m ++ (ms.flatMap memberBytes ++ rest)).length := by
      have long := length_localHeader m
      simp only [memberBytes, List.length_append]
      omega
    rw [List.flatMap_cons, List.append_assoc, read?, if_neg (by rw [header.signature]; decide),
      readMember?_memberBytes named.1]
    dsimp only
    rw [if_pos shorter, ih named.2, Option.map_some]

/-- What is read in the bytes of an archive are its members. -/
theorem read?_bytes {a : Archive} (named : ∀ m ∈ a.members, IsNamed m) :
    read? a.bytes = some a.members := by
  rw [bytes, List.append_assoc]
  exact read?_append named (signature_directory _ _ _ _ _)

end Grimoire.Archive
