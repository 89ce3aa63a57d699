import Grimoire.Text.Utf8

/-!
# Deflate

Bytes are written as one final block with the fixed codes, each byte as a literal. A code is written
from its most significant bit on; bits fill a byte from its least significant bit on.

Main statements: `Deflate.length_pack` (bits fill whole bytes) and `Deflate.length_literal` (a literal
takes eight or nine bits).
-/

namespace Grimoire.Deflate

/-- The bits of a number on `width` places, the most significant first. -/
def bits (width n : Nat) : List Bool := (List.range width).reverse.map fun i => n.testBit i

/-- The fixed code of a byte as a literal. -/
def literal (b : UInt8) : List Bool :=
  if b.toNat < 144 then bits 8 (48 + b.toNat) else bits 9 (400 + (b.toNat - 144))

/-- The head of a final block with the fixed codes. -/
def head : List Bool := [true, true, false]

/-- The fixed code of the end of a block. -/
def blockEnd : List Bool := bits 7 0

/-- The byte that bits fill from its least significant bit on. -/
def byte (bs : List Bool) : UInt8 := UInt8.ofNat (bs.foldr (fun b n => 2 * n + b.toNat) 0)

/-- The bytes that bits fill; the last byte is filled up with zeros. -/
def pack (bs : List Bool) : Bytes :=
  match bs with
  | [] => []
  | b :: bs => byte (b :: bs.take 7) :: pack (bs.drop 7)
termination_by bs.length
decreasing_by simp only [List.length_drop, List.length_cons]; omega

/-- The deflated form of bytes. -/
def compress (bytes : Bytes) : Bytes := pack (head ++ bytes.flatMap literal ++ blockEnd)

theorem length_pack (bs : List Bool) : (pack bs).length = (bs.length + 7) / 8 := by
  fun_induction pack bs with
  | case1 => rfl
  | case2 b bs ih =>
    simp only [List.length_cons, ih, List.length_drop]
    omega

theorem length_literal (b : UInt8) :
    (literal b).length = if b.toNat < 144 then 8 else 9 := by
  unfold literal
  split <;> simp [bits]

end Grimoire.Deflate
