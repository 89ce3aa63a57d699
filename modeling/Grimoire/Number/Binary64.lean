/-!
# Binary floating point

A `Binary64` is a number with a sign, 53 significant bits and a bounded exponent, an infinity, or
the one value that is not a number. Everything is computed in exact natural arithmetic: a quotient
is rounded to the nearest number, and half way between two of them to the one with even significand.
-/

namespace Grimoire

-- the power of natural numbers is that of the core library, whatever else is in scope
attribute [local instance (high)] instPowNat

/-- The significand and exponent of a finite number in its one canonical form: 53 bits, the first of
them set unless the exponent is the least. -/
def IsCanonical (significand : Nat) (exponent : Int) : Prop :=
  significand < 2 ^ (53 : Nat) ∧ -1074 ≤ exponent ∧ exponent ≤ 971 ∧
    (2 ^ (52 : Nat) ≤ significand ∨ exponent = -1074)

instance (significand : Nat) (exponent : Int) : Decidable (IsCanonical significand exponent) :=
  inferInstanceAs (Decidable (_ ∧ _))

/-- A binary floating-point number; the finite ones stand for `±significand · 2 ^ exponent`. -/
inductive Binary64 where
  | nan
  | infinity (negative : Bool)
  | finite (negative : Bool) (significand : Nat) (exponent : Int)
      (canonical : IsCanonical significand exponent)
  deriving DecidableEq

/-- The quotient of two natural numbers, rounded to the nearest, a half to the even neighbour. -/
def roundQuotient (num den : Nat) : Nat :=
  let floor := num / den
  let twice := 2 * (num % den)
  if twice < den then floor
  else if den < twice then floor + 1
  else floor + floor % 2

/-- The exponent of the greatest power of two that is at most `num / den`, for positive arguments. -/
def floorLog2 (num den : Nat) : Int :=
  let guess : Int := (Nat.log2 num : Int) - Nat.log2 den
  if den * 2 ^ guess.toNat ≤ num * 2 ^ (-guess).toNat then guess else guess - 1

namespace Binary64

/-- Zero, with a sign. -/
def zero (negative : Bool) : Binary64 := finite negative 0 (-1074) (by decide)

/-- A finite number, or an infinity where the exponent is too large. -/
def pack (negative : Bool) (significand : Nat) (exponent : Int) : Binary64 :=
  if h : IsCanonical significand exponent then finite negative significand exponent h
  else infinity negative

/-- The number nearest to the quotient `num / den`, for positive `den`. -/
def ofRatio (negative : Bool) (num den : Nat) : Binary64 :=
  if num = 0 then zero negative
  else
    let exponent := max (floorLog2 num den - 52) (-1074)
    let significand := roundQuotient (num * 2 ^ (-exponent).toNat) (den * 2 ^ exponent.toNat)
    if significand = 2 ^ (53 : Nat) then pack negative (2 ^ (52 : Nat)) (exponent + 1)
    else pack negative significand exponent

/-- The quotient that a finite magnitude `significand · 2 ^ exponent` is. -/
def magnitude (significand : Nat) (exponent : Int) : Nat × Nat :=
  (significand * 2 ^ exponent.toNat, 2 ^ (-exponent).toNat)

/-- Whether a number is below zero. -/
def isNegative : Binary64 → Bool
  | nan => false
  | infinity negative => negative
  | finite negative significand _ _ => negative && significand != 0

/-- Whether a number is zero or below. -/
def isNonpositive : Binary64 → Bool
  | nan => false
  | infinity negative => negative
  | finite negative significand _ _ => negative || significand == 0

/-- Whether a number is zero, of either sign. -/
def isZero : Binary64 → Bool
  | finite _ significand _ _ => significand == 0
  | _ => false

/-- Whether a number is finite. -/
def isFinite : Binary64 → Bool
  | finite .. => true
  | _ => false

/-- Whether a number is finite and without a fraction. -/
def isIntegral : Binary64 → Bool
  | finite _ significand exponent _ => significand % 2 ^ (-exponent).toNat == 0
  | _ => false

end Binary64

end Grimoire
