import Grimoire.Number.Binary64
import Grimoire.Text.CodePoint

/-!
# Decimal numerals of floating-point numbers

`Binary64.ofDecimal` rounds a decimal to the nearest number. `Binary64.shortest` finds the fewest
digits that read back as the same number, and of those the nearest. `NumberFormat` says how digits
are written: between two exponents positionally, otherwise with a power of ten.
-/

namespace Grimoire

-- the power of natural numbers is that of the core library, whatever else is in scope
attribute [local instance (high)] instPowNat

/-- The number `digits · 10 ^ exponent`. -/
structure Decimal where
  digits : Nat
  exponent : Int
  deriving DecidableEq

namespace Decimal

/-- The count of digits. -/
def size (d : Decimal) : Nat := (Nat.toDigits 10 d.digits).length

/-- A positive decimal without zeros at the end of its digits. -/
def trim (d : Decimal) : Decimal := go d.size d
where
  go : Nat → Decimal → Decimal
    | 0, d => d
    | steps + 1, d => if d.digits % 10 = 0 then go steps ⟨d.digits / 10, d.exponent + 1⟩ else d

end Decimal

namespace Binary64

/-- The number nearest to a decimal. Decimals out of all bounds are not expanded. -/
def ofDecimal (negative : Bool) (d : Decimal) : Binary64 :=
  if d.digits = 0 then zero negative
  else if 310 < d.exponent + d.size then infinity negative
  else if d.exponent + d.size < -330 then zero negative
  else ofRatio negative (d.digits * 10 ^ d.exponent.toNat) (10 ^ (-d.exponent).toNat)

/-- The exponent of the greatest power of ten that is at most `num / den`, for positive arguments. -/
def floorLog10 (num den : Nat) : Int :=
  let guess : Int := ((Nat.toDigits 10 num).length : Int) - (Nat.toDigits 10 den).length
  if den * 10 ^ guess.toNat ≤ num * 10 ^ (-guess).toNat then guess else guess - 1

/-- The two decimals with `count` digits around a positive magnitude, the nearer one first and of two
equally near ones the even one, without zeros at their ends. -/
def neighbours (significand : Nat) (exponent : Int) (count : Nat) : List Decimal :=
  let (num, den) := magnitude significand exponent
  let place := floorLog10 num den + 1 - count
  let num := num * 10 ^ (-place).toNat
  let den := den * 10 ^ place.toNat
  let floor := num / den
  let nearest := roundQuotient num den
  [Decimal.trim ⟨nearest, place⟩,
    Decimal.trim ⟨if nearest = floor then floor + 1 else floor, place⟩]

/-- A magnitude with all its digits. -/
def allDigits (significand : Nat) (exponent : Int) : Decimal :=
  ⟨significand * 2 ^ exponent.toNat * 5 ^ (-exponent).toNat, min exponent 0⟩

/-- The fewest digits that read back as the magnitude, and of those the nearest. -/
def shortest (significand : Nat) (exponent : Int) : Decimal :=
  let candidates := (List.range 17).flatMap fun i => neighbours significand exponent (i + 1)
  let number := pack false significand exponent
  (candidates.find? fun d => ofDecimal false d = number).getD (allDigits significand exponent)

/-- A positive magnitude rounded to a number of digits, a half to the even neighbour. -/
def roundDigits (count significand : Nat) (exponent : Int) : Decimal :=
  (neighbours significand exponent count).headD ⟨0, 0⟩

end Binary64

/-- How decimals are written. -/
structure NumberFormat where
  /-- The least exponent of a leading digit that is written positionally. -/
  least : Int
  /-- The least exponent of a leading digit above those written positionally. -/
  bound : Int
  /-- Whether a positional numeral without a fraction ends in `.0`. -/
  marksIntegral : Bool

namespace NumberFormat

/-- The digits with zeros or a point put in, the leading digit at the power `lead` of ten. -/
def positional (f : NumberFormat) (digits : Text) (lead : Int) : Text :=
  if lead < 0 then
    "0." ++ List.replicate (-lead - 1).toNat (CodePoint.scalar '0') ++ digits
  else
    let whole := lead.toNat + 1
    if digits.length ≤ whole then
      digits ++ List.replicate (whole - digits.length) (CodePoint.scalar '0')
        ++ (if f.marksIntegral then ".0" else "" : Text)
    else digits.take whole ++ "." ++ digits.drop whole

/-- The digits with a point after the first one and a power of ten, with at least two digits. -/
def exponential (digits : Text) (lead : Int) : Text :=
  let power := Text.ofNat lead.natAbs
  digits.take 1 ++ (if digits.length ≤ 1 then ([] : Text) else "." ++ digits.drop 1)
    ++ (if lead < 0 then "e-" else "e+" : Text)
    ++ (if power.length = 1 then "0" ++ power else power)

/-- Writes a positive decimal whose digits do not end in zero. -/
def write (f : NumberFormat) (d : Decimal) : Text :=
  let digits := Text.ofNat d.digits
  let lead : Int := d.exponent + digits.length - 1
  if f.least ≤ lead ∧ lead < f.bound then f.positional digits lead else exponential digits lead

end NumberFormat

end Grimoire
