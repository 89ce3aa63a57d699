import Grimoire.Archive.Deflate
import Mathlib.Algebra.Group.Nat.Defs

/-!
# Deflated bytes can be inflated

The bits of packed bytes are the bits that were packed, and then zeros up to a whole byte
(`Deflate.unpack_pack`). No fixed code is the beginning of another one, so the bytes of a block can be
read off its bits, and what follows the block is left as it is (`Deflate.inflate_compress`).
-/

namespace Grimoire.Deflate

/-! ## Reading -/

/-- The bits of bytes, those of each byte from its least significant bit on. -/
def unpack (bytes : Bytes) : List Bool := bytes.flatMap fun b => (List.range 8).map b.toNat.testBit

/-- The number with given bits, the most significant first. -/
def number (bs : List Bool) : Nat := bs.foldl (fun n b => 2 * n + b.toNat) 0

/-- Reads a number of bits. -/
def code? (width : Nat) (bs : List Bool) : Option (Nat × List Bool) :=
  if width ≤ bs.length then some (number (bs.take width), bs.drop width) else none

/-- Reads a fixed code: that of a byte, or that of the end of the block. The codes of repetitions are
not read. -/
def symbol? (bs : List Bool) : Option (Option UInt8 × List Bool) := do
  let (n, rest) ← code? 7 bs
  if n = 0 then return (none, rest)
  else if n < 24 then none
  else
    let (n, rest) ← code? 8 bs
    if n < 192 then return (some (UInt8.ofNat (n - 48)), rest)
    else if n < 200 then none
    else
      let (n, rest) ← code? 9 bs
      return (some (UInt8.ofNat (n - 256)), rest)

/-- Reads the bytes of a block up to its end. -/
def literals? (bs : List Bool) : Option (Bytes × List Bool) :=
  match symbol? bs with
  | none => none
  | some (none, rest) => some ([], rest)
  | some (some b, rest) =>
    if rest.length < bs.length then
      (literals? rest).map fun (bytes, last) => (b :: bytes, last)
    else none
termination_by bs.length

/-- Reads a final block with the fixed codes, and gives its content and the bytes behind it. -/
def inflate? (bytes : Bytes) : Option (Bytes × Bytes) :=
  match unpack bytes with
  | true :: true :: false :: bs =>
    (literals? bs).map fun (content, rest) =>
      (content, bytes.drop (bytes.length - rest.length / 8))
  | _ => none

/-! ## Bits and bytes -/

/-- The number with given bits, the least significant first. -/
def value (bs : List Bool) : Nat := bs.foldr (fun b n => 2 * n + b.toNat) 0

theorem value_lt (bs : List Bool) : value bs < 2 ^ bs.length := by
  induction bs with
  | nil => decide
  | cons b bs ih =>
    have := Bool.toNat_lt b
    simp only [value, List.foldr_cons, List.length_cons, Nat.pow_succ] at ih ⊢
    omega

theorem testBit_value (bs : List Bool) (i : Nat) : (value bs).testBit i = bs.getD i false := by
  induction bs generalizing i with
  | nil => simp [value]
  | cons b bs ih =>
    have head : value (b :: bs) = 2 * value bs + b.toNat := rfl
    rw [head]
    cases i with
    | zero =>
      have parity : (2 * value bs + b.toNat) % 2 = b.toNat := by
        have := Bool.toNat_lt b
        omega
      rw [Nat.testBit_zero, parity]
      cases b <;> rfl
    | succ i =>
      have half : (2 * value bs + b.toNat) / 2 = value bs := by
        have := Bool.toNat_lt b
        omega
      rw [Nat.testBit_succ, half, ih, List.getD_cons_succ]

theorem unpack_byte {bs : List Bool} (few : bs.length ≤ 8) :
    (List.range 8).map (byte bs).toNat.testBit = bs ++ List.replicate (8 - bs.length) false := by
  have small : value bs < 2 ^ 8 :=
    Nat.lt_of_lt_of_le (value_lt bs) (Nat.pow_le_pow_right (by decide) few)
  have whole : (byte bs).toNat = value bs := by
    rw [byte, UInt8.toNat_ofNat']
    exact Nat.mod_eq_of_lt small
  rw [whole]
  refine List.ext_getElem (by simp; omega) fun i first second => ?_
  rw [List.getElem_map, List.getElem_range, testBit_value, List.getElem_append]
  split
  · next inside => simp [List.getD, inside]
  · next outside => simp [List.getD, Nat.le_of_not_lt outside]

/-- The bits that were packed are followed by zeros. -/
theorem unpack_pack (bs : List Bool) :
    ∃ zeros : List Bool, zeros.length < 8 ∧ unpack (pack bs) = bs ++ zeros := by
  fun_induction pack bs with
  | case1 => exact ⟨[], by decide, rfl⟩
  | case2 b bs ih =>
    obtain ⟨zeros, few, packed⟩ := ih
    have front : (b :: bs.take 7).length ≤ 8 := by
      rw [List.length_cons, List.length_take]
      omega
    have first : unpack (byte (b :: bs.take 7) :: pack (bs.drop 7))
        = (List.range 8).map (byte (b :: bs.take 7)).toNat.testBit ++ unpack (pack (bs.drop 7)) :=
      List.flatMap_cons
    rw [first, unpack_byte front]
    by_cases more : 7 ≤ bs.length
    · have full : 8 - (b :: bs.take 7).length = 0 := by simp; omega
      refine ⟨zeros, few, ?_⟩
      rw [packed, full, List.replicate_zero, List.append_nil, List.cons_append,
        ← List.append_assoc, List.take_append_drop, List.cons_append]
    · have short : bs.take 7 = bs := List.take_of_length_le (by omega)
      have none : bs.drop 7 = [] := List.drop_of_length_le (by omega)
      have nothing : unpack (pack []) = [] := by simp [pack, unpack]
      rw [short, none, nothing, List.append_nil]
      exact ⟨_, by simp; omega, rfl⟩

/-! ## Codes -/

theorem code?_append {width : Nat} {code : List Bool} (enough : width ≤ code.length)
    (rest : List Bool) :
    code? width (code ++ rest) = some (number (code.take width), code.drop width ++ rest) := by
  rw [code?, if_pos (by rw [List.length_append]; omega), List.take_append_of_le_length enough,
    List.drop_append_of_le_length enough]

/-- The fixed codes of bytes begin in different ways. -/
theorem literal_code : ∀ n < 256, let code := literal (UInt8.ofNat n)
    24 ≤ number (code.take 7) ∧
      if n < 144 then code.length = 8 ∧ number (code.take 8) = n + 48
      else code.length = 9 ∧ 200 ≤ number (code.take 8) ∧ number (code.take 9) = n + 256 := by
  decide +kernel

theorem symbol?_literal (b : UInt8) (rest : List Bool) :
    symbol? (literal b ++ rest) = some (some b, rest) := by
  have code := literal_code b.toNat b.toNat_lt
  rw [UInt8.ofNat_toNat] at code
  generalize literal b = l at code
  obtain ⟨long, code⟩ := code
  have seven : 7 ≤ l.length := by split at code <;> omega
  have eight : 8 ≤ l.length := by split at code <;> omega
  have first : number (l.take 7) ≠ 0 := by omega
  have second : ¬number (l.take 7) < 24 := by omega
  simp only [symbol?, code?_append seven, code?_append eight, bind, Option.bind_some, pure, first,
    second, if_false]
  split at code
  · next small =>
    have low : number (l.take 8) < 192 := by omega
    have back : number (l.take 8) - 48 = b.toNat := by omega
    rw [if_pos low, back, UInt8.ofNat_toNat, ← code.1, List.drop_length, List.nil_append]
  · next large =>
    have high : ¬number (l.take 8) < 192 := by omega
    have higher : ¬number (l.take 8) < 200 := by omega
    have nine : 9 ≤ l.length := by omega
    have back : number (l.take 9) - 256 = b.toNat := by omega
    rw [if_neg high, if_neg higher, code?_append nine, Option.bind_some, back, UInt8.ofNat_toNat,
      ← code.1, List.drop_length, List.nil_append]

theorem symbol?_blockEnd (rest : List Bool) : symbol? (blockEnd ++ rest) = some (none, rest) := rfl

/-- The bytes of a block are read up to its end. -/
theorem literals?_flatMap (content : Bytes) (rest : List Bool) :
    literals? (content.flatMap literal ++ blockEnd ++ rest) = some (content, rest) := by
  induction content with
  | nil =>
    rw [List.flatMap_nil, List.nil_append, literals?, symbol?_blockEnd]
  | cons b content ih =>
    have shorter : (content.flatMap literal ++ blockEnd ++ rest).length
        < (literal b ++ (content.flatMap literal ++ blockEnd ++ rest)).length := by
      have long := length_literal b
      simp only [List.length_append]
      split at long <;> omega
    rw [List.flatMap_cons, List.append_assoc, List.append_assoc, ← List.append_assoc _ _ rest,
      literals?, symbol?_literal]
    dsimp only
    rw [if_pos shorter, ih, Option.map_some]

theorem unpack_append (bytes more : Bytes) : unpack (bytes ++ more) = unpack bytes ++ unpack more :=
  List.flatMap_append

theorem length_unpack (bytes : Bytes) : (unpack bytes).length = 8 * bytes.length := by
  induction bytes with
  | nil => rfl
  | cons b bytes ih =>
    have first : unpack (b :: bytes) = (List.range 8).map b.toNat.testBit ++ unpack bytes :=
      List.flatMap_cons
    rw [first, List.length_append, ih, List.length_map, List.length_range, List.length_cons]
    omega

/-- Bytes that were deflated are inflated to what they were, and what follows is left. -/
theorem inflate_compress (content more : Bytes) :
    inflate? (compress content ++ more) = some (content, more) := by
  obtain ⟨zeros, few, packed⟩ := unpack_pack (head ++ content.flatMap literal ++ blockEnd)
  have bits : unpack (compress content ++ more) = true :: true :: false ::
      (content.flatMap literal ++ blockEnd ++ (zeros ++ unpack more)) := by
    rw [unpack_append, compress, packed]
    simp [head]
  have left : (zeros ++ unpack more).length / 8 = more.length := by
    rw [List.length_append, length_unpack]
    omega
  simp only [inflate?, bits]
  rw [literals?_flatMap, Option.map_some, left, List.length_append, Nat.add_sub_cancel,
    List.drop_left]

end Grimoire.Deflate
