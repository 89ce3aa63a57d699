import Grimoire.Text.Utf8

/-!
# Encoded text decodes

The bytes of a text decode to the text (`Utf8.decode_encode`).
-/

namespace Grimoire.Utf8

/-- A byte behind the first one of a sequence. -/
abbrev trailByte (n : Nat) : UInt8 := UInt8.ofNat (0x80 + n % 64)

theorem toNat_trailByte (n : Nat) : (trailByte n).toNat = 0x80 + n % 64 := by
  rw [trailByte, UInt8.toNat_ofNat']
  omega

theorem trailByte_bounds (n : Nat) : 0x80 ≤ trailByte n ∧ trailByte n ≤ 0xBF := by
  rw [UInt8.le_iff_toNat_le, UInt8.le_iff_toNat_le, toNat_trailByte]
  change 0x80 ≤ 0x80 + n % 64 ∧ 0x80 + n % 64 ≤ 0xBF
  omega

theorem shape?_two : ∀ k < 32, 2 ≤ k →
    ¬UInt8.ofNat (0xC0 + k) < 0x80 ∧ shape? (UInt8.ofNat (0xC0 + k)) = some (1, 0x80, 0xBF) := by
  decide

theorem shape?_three : ∀ k < 16,
    ¬UInt8.ofNat (0xE0 + k) < 0x80 ∧ shape? (UInt8.ofNat (0xE0 + k))
      = some (2, if k = 0 then 0xA0 else 0x80, if k = 13 then 0x9F else 0xBF) := by
  decide

theorem shape?_four : ∀ k < 5,
    ¬UInt8.ofNat (0xF0 + k) < 0x80 ∧ shape? (UInt8.ofNat (0xF0 + k))
      = some (3, if k = 0 then 0x90 else 0x80, if k = 4 then 0x8F else 0xBF) := by
  decide

theorem trailing_cons {low high b : UInt8} {count : Nat} {rest : Bytes}
    (bounds : low ≤ b ∧ b ≤ high)
    (good : (trailing 0x80 0xBF count rest).1 = count) :
    (trailing low high (count + 1) (b :: rest)).1 = count + 1 := by
  rw [trailing, if_pos bounds]
  exact congrArg (· + 1) good

/-- A sequence of several bytes is read as one character. -/
theorem go_sequence {lead low high : UInt8} {count : Nat} {trail : Bytes} {c : Char}
    (position : Nat) (done : Text) (rest : Bytes)
    (shape : ¬lead < 0x80 ∧ shape? lead = some (count, low, high)) (length : trail.length = count)
    (good : (trailing low high count (trail ++ rest)).1 = count)
    (value : assemble lead count (trail ++ rest) = c.toNat) :
    decode.go position done (lead :: (trail ++ rest))
      = decode.go (position + count + 1) (.scalar c :: done) rest := by
  rw [decode.go.eq_2, if_neg shape.1]
  simp only [shape.2, good, if_true, value, Char.ofNat_toNat]
  rw [List.drop_left' length]

theorem go_encodeChar (position : Nat) (done : Text) (c : Char) (rest : Bytes) :
    ∃ position', decode.go position done (encodeChar c ++ rest)
      = decode.go position' (.scalar c :: done) rest := by
  have valid : c.toNat < 0xD800 ∨ 0xDFFF < c.toNat ∧ c.toNat < 0x110000 := c.valid
  simp only [encodeChar]
  split
  · next one =>
    have small : UInt8.ofNat c.toNat < 0x80 := by
      rw [UInt8.lt_iff_toNat_lt, UInt8.toNat_ofNat']
      change c.toNat % 2 ^ 8 < 0x80
      omega
    refine ⟨position + 1, ?_⟩
    rw [List.singleton_append, decode.go.eq_2, if_pos small, UInt8.toNat_ofNat',
      Nat.mod_eq_of_lt (by omega), Char.ofNat_toNat]
  split
  · next two =>
    refine ⟨_, go_sequence position done rest (shape?_two _ (by omega) (by omega)) rfl ?_ ?_⟩
    · exact trailing_cons (trailByte_bounds _) rfl
    · simp only [assemble, List.cons_append, List.take_succ_cons, List.take_zero, List.foldl_cons,
        List.foldl_nil, UInt8.toNat_ofNat']
      omega
  split
  · next three =>
    refine ⟨_, go_sequence position done rest (shape?_three _ (by omega)) rfl ?_ ?_⟩
    · refine trailing_cons ?_ (trailing_cons (trailByte_bounds _) rfl)
      rw [UInt8.le_iff_toNat_le, UInt8.le_iff_toNat_le, toNat_trailByte, apply_ite UInt8.toNat,
        apply_ite UInt8.toNat]
      simp only [UInt8.reduceToNat]
      constructor
      · split <;> omega
      · split <;> omega
    · simp only [assemble, List.cons_append, List.take_succ_cons, List.take_zero, List.foldl_cons,
        List.foldl_nil, UInt8.toNat_ofNat']
      omega
  · next four =>
    refine ⟨_, go_sequence position done rest (shape?_four _ (by omega)) rfl ?_ ?_⟩
    · refine trailing_cons ?_ (trailing_cons (trailByte_bounds _)
        (trailing_cons (trailByte_bounds _) rfl))
      rw [UInt8.le_iff_toNat_le, UInt8.le_iff_toNat_le, toNat_trailByte, apply_ite UInt8.toNat,
        apply_ite UInt8.toNat]
      simp only [UInt8.reduceToNat]
      constructor
      · split <;> omega
      · split <;> omega
    · simp only [assemble, List.cons_append, List.take_succ_cons, List.take_zero, List.foldl_cons,
        List.foldl_nil, UInt8.toNat_ofNat']
      omega

theorem scalars?_eq {t : Text} {cs : List Char} (h : t.scalars? = some cs) :
    t = cs.map .scalar := by
  induction t generalizing cs with
  | nil =>
    obtain rfl : [] = cs := Option.some.inj h
    rfl
  | cons c t ih =>
    simp only [Text.scalars?, List.mapM_cons] at ih h
    cases c with
    | surrogate s => exact absurd h (by simp [CodePoint.toChar?])
    | scalar c =>
      cases rest : t.mapM CodePoint.toChar? with
      | none => exact absurd h (by simp [CodePoint.toChar?, rest])
      | some ds =>
        obtain rfl : c :: ds = cs := by simpa [CodePoint.toChar?, rest] using h
        rw [List.map_cons, ← ih rest]

theorem go_encode (position : Nat) (done : Text) (cs : List Char) :
    decode.go position done (cs.flatMap encodeChar) = .ok (done.reverse ++ cs.map .scalar) := by
  induction cs generalizing position done with
  | nil => simp [decode.go]
  | cons c cs ih =>
    obtain ⟨position', step⟩ := go_encodeChar position done c (cs.flatMap encodeChar)
    rw [List.flatMap_cons, step, ih]
    simp

/-- The bytes of a text decode to the text. -/
theorem decode_encode {t : Text} {bytes : Bytes} (h : encode t = some bytes) :
    decode bytes = .ok t := by
  obtain ⟨cs, scalars, rfl⟩ := Option.map_eq_some_iff.mp h
  rw [decode, go_encode, scalars?_eq scalars]
  rfl

end Grimoire.Utf8
