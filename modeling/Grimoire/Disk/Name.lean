import Grimoire.Text.Utf8

/-!
# Names on a disk

A disk keeps names as bytes. The bytes of a text are those of its characters, and a surrogate of one
range stands for a byte that is no part of a character. Any other surrogate has no bytes, so that a text
with one is no name. Two texts may have the same bytes, and then they are the same name.

Main statements: `Name.ofText_text` and `Name.isNameable_text` (the bytes of every name are those of a
text that is a name).
-/

namespace Grimoire

/-- A name as a disk keeps it. -/
abbrev Name := Bytes

namespace CodePoint

/-- Whether a code point has bytes in a name. -/
def isNameable : CodePoint → Bool
  | scalar _ => true
  | surrogate s => 0x480 ≤ s.val ∧ s.val < 0x500

/-- The bytes of a code point in a name. -/
def nameBytes : CodePoint → Bytes
  | scalar c => Utf8.encodeChar c
  | surrogate s => if isNameable (surrogate s) then [UInt8.ofNat (s.val - 0x400)] else []

/-- The surrogate that stands for a byte. -/
def ofByte (b : UInt8) : CodePoint := surrogate ⟨0x400 + b.toNat, by have := b.toNat_lt; omega⟩

end CodePoint

namespace Name

/-- The bytes of a text in a name. -/
def ofText (t : Text) : Name := t.flatMap CodePoint.nameBytes

/-- Whether a text has bytes in a name. -/
def isNameable (t : Text) : Bool := t.all CodePoint.isNameable

/-- The first code point of a text that has no bytes in a name, with the surrogates behind it. -/
def error (t : Text) : Utf8.EncodeError :=
  let front := t.takeWhile CodePoint.isNameable
  let run := (t.drop front.length).takeWhile fun c => !c.isScalar
  ⟨front.length, run.length, (run.head?.map CodePoint.val).getD 0⟩

/-- The number of the character that bytes start with, if they start with one. -/
def number (lead : UInt8) (rest : Bytes) : Nat :=
  if lead < 0x80 then lead.toNat
  else Utf8.assemble lead ((Utf8.shape? lead).elim 0 Prod.fst) rest

/-- The character that bytes start with, if they start with one. -/
def leading? : Bytes → Option Char
  | [] => none
  | lead :: rest =>
    let c := Char.ofNat (number lead rest)
    if (Utf8.encodeChar c).isPrefixOf (lead :: rest) then some c else none

/-- The text of a name behind its first bytes. -/
def textBehind : (skipped : Nat) → Name → Text
  | _, [] => []
  | skipped + 1, _ :: rest => textBehind skipped rest
  | 0, b :: rest =>
    match leading? (b :: rest) with
    | some c => .scalar c :: textBehind ((Utf8.encodeChar c).length - 1) rest
    | none => CodePoint.ofByte b :: textBehind 0 rest

/-- A text of a name: a byte that is no part of a character becomes a surrogate. -/
def text (name : Name) : Text := textBehind 0 name

/-- The name that leads a folder up. -/
def up : Name := [0x2E, 0x2E]

theorem encodeChar_ne_nil (c : Char) : Utf8.encodeChar c ≠ [] := by
  simp only [Utf8.encodeChar]
  split
  · simp
  · split
    · simp
    · split <;> simp

theorem encodeChar_of_lt {c : Char} (small : c.toNat < 0x80) :
    Utf8.encodeChar c = [UInt8.ofNat c.toNat] := by
  simp only [Utf8.encodeChar, if_pos small]

/-- A low byte is the whole of a character. -/
theorem eq_of_mem_encodeChar {c : Char} {b : UInt8} (member : b ∈ Utf8.encodeChar c)
    (small : b.toNat < 0x80) : c.toNat = b.toNat ∧ Utf8.encodeChar c = [b] := by
  have bound : c.toNat < 0x110000 := by
    have valid : c.toNat < 0xD800 ∨ 0xDFFF < c.toNat ∧ c.toNat < 0x110000 := c.valid
    omega
  by_cases one : c.toNat < 0x80
  · rw [encodeChar_of_lt one] at member ⊢
    obtain rfl := List.mem_singleton.mp member
    rw [UInt8.toNat_ofNat', Nat.mod_eq_of_lt (by omega)]
    exact ⟨rfl, rfl⟩
  · simp only [Utf8.encodeChar, if_neg one] at member
    have high : ∀ n, 0x80 ≤ n → n < 0x100 → b ≠ UInt8.ofNat n := by
      rintro n low less rfl
      rw [UInt8.toNat_ofNat', Nat.mod_eq_of_lt less] at small
      omega
    split at member
    · simp only [List.mem_cons, List.not_mem_nil, or_false] at member
      rcases member with same | same <;> exact absurd same (high _ (by omega) (by omega))
    · split at member <;> simp only [List.mem_cons, List.not_mem_nil, or_false] at member
      · rcases member with same | same | same <;> exact absurd same (high _ (by omega) (by omega))
      · rcases member with same | same | same | same <;>
          exact absurd same (high _ (by omega) (by omega))

theorem isPrefix_of_leading? {bytes : Bytes} {c : Char} (starts : leading? bytes = some c) :
    Utf8.encodeChar c <+: bytes := by
  cases bytes with
  | nil => cases starts
  | cons lead rest =>
    simp only [leading?] at starts
    split at starts
    · rename_i h
      obtain rfl := Option.some.inj starts
      exact List.isPrefixOf_iff_prefix.mp h
    · cases starts

/-- A low byte is a character. -/
theorem encodeChar_ofNat {b : UInt8} (small : b.toNat < 0x80) :
    Utf8.encodeChar (Char.ofNat b.toNat) = [b] := by
  have own : (Char.ofNat b.toNat).toNat = b.toNat := by
    rw [Char.ofNat, dif_pos (.inl (by omega))]
    rfl
  rw [encodeChar_of_lt (own.symm ▸ small), own, UInt8.ofNat_toNat]

theorem leading?_of_lt {b : UInt8} (small : b.toNat < 0x80) (rest : Bytes) :
    leading? (b :: rest) ≠ none := by
  have low : b < 0x80 := UInt8.lt_iff_toNat_lt.mpr small
  simp only [leading?, number, if_pos low]
  rw [encodeChar_ofNat small]
  simp

theorem nameBytes_ofByte {b : UInt8} (high : 0x80 ≤ b.toNat) :
    (CodePoint.ofByte b).isNameable = true ∧ (CodePoint.ofByte b).nameBytes = [b] := by
  have less := b.toNat_lt
  have nameable : (CodePoint.ofByte b).isNameable = true := by
    simp only [CodePoint.ofByte, CodePoint.isNameable, decide_eq_true_eq]
    omega
  refine ⟨nameable, ?_⟩
  rw [CodePoint.ofByte] at nameable ⊢
  rw [CodePoint.nameBytes, if_pos nameable, Nat.add_sub_cancel_left, UInt8.ofNat_toNat]

theorem high_of_leading? {b : UInt8} {rest : Bytes} (none : leading? (b :: rest) = none) :
    0x80 ≤ b.toNat :=
  Nat.not_lt.mp fun small => leading?_of_lt small rest none

theorem ofText_textBehind (skipped : Nat) (name : Name) :
    ofText (textBehind skipped name) = name.drop skipped := by
  induction name generalizing skipped with
  | nil => cases skipped <;> rfl
  | cons b rest ih =>
    cases skipped with
    | succ skipped => exact ih skipped
    | zero =>
      rw [textBehind]
      split
      · rename_i c starts
        obtain ⟨first, more, bytes⟩ := List.exists_cons_of_ne_nil (encodeChar_ne_nil c)
        obtain ⟨tail, whole⟩ := isPrefix_of_leading? starts
        rw [bytes, List.cons_append] at whole
        obtain ⟨rfl, rfl⟩ := List.cons.inj whole
        rw [ofText, List.flatMap_cons, ← ofText, ih, CodePoint.nameBytes, bytes, List.length_cons,
          Nat.add_sub_cancel, List.drop_left]
        rfl
      · rename_i none
        rw [ofText, List.flatMap_cons, ← ofText, ih, (nameBytes_ofByte (high_of_leading? none)).2]
        rfl

/-- The bytes of the text of a name are the name. -/
@[simp]
theorem ofText_text (name : Name) : ofText (text name) = name := ofText_textBehind 0 name

theorem isNameable_textBehind (skipped : Nat) (name : Name) :
    isNameable (textBehind skipped name) = true := by
  induction name generalizing skipped with
  | nil => cases skipped <;> rfl
  | cons b rest ih =>
    cases skipped with
    | succ skipped => exact ih skipped
    | zero =>
      rw [textBehind]
      split
      · exact ih _
      · rename_i none
        rw [isNameable, List.all_cons, (nameBytes_ofByte (high_of_leading? none)).1]
        exact ih 0

/-- The text of a name is a name. -/
@[simp]
theorem isNameable_text (name : Name) : isNameable (text name) = true :=
  isNameable_textBehind 0 name

end Name

end Grimoire
