import Grimoire.Number.Decimal
import Mathlib.Algebra.Order.Field.Power
import Mathlib.Data.Int.Log
import Mathlib.Data.Rat.Floor
import Mathlib.Tactic.Ring
import Mathlib.Tactic.Linarith
import Mathlib.Tactic.Positivity
import Mathlib.Tactic.FieldSimp

/-!
# Rounding depends on the value alone

A quotient is rounded through natural arithmetic on its two parts, but the outcome depends only on
the rational number that it is (`Binary64.ofRatio_congr`), and a number that is representable is its
own rounding (`Binary64.ofRatio_magnitude`). So a decimal may be written with more zeros
(`Binary64.ofDecimal_scale`), and the digits that are chosen for a number read back as that number
(`Binary64.ofDecimal_shortest`).
-/

namespace Grimoire

/-! ## The exponent of a quotient -/

theorem two_zpow_le_ratio_iff {num den : Nat} (hden : 0 < den) (g : Int) :
    den * 2 ^ g.toNat ≤ num * 2 ^ (-g).toNat ↔ (2 : ℚ) ^ g ≤ (num : ℚ) / den := by
  have hden' : (0 : ℚ) < den := by exact_mod_cast hden
  rcases Int.eq_nat_or_neg g with ⟨n, rfl | rfl⟩
  · have hneg : (-(n : Int)).toNat = 0 := by omega
    rw [hneg, Int.toNat_natCast, pow_zero, mul_one, zpow_natCast, le_div_iff₀ hden', mul_comm]
    exact_mod_cast Iff.rfl
  · have hneg : (-(n : Int)).toNat = 0 := by omega
    rw [hneg, neg_neg, Int.toNat_natCast, pow_zero, mul_one, zpow_neg, zpow_natCast,
      inv_le_iff_one_le_mul₀ (by positivity), div_mul_eq_mul_div, le_div_iff₀ hden', one_mul]
    exact_mod_cast Iff.rfl

theorem zpow_le_iff_le_log_two {x : Int} {r : ℚ} (hr : 0 < r) :
    (2 : ℚ) ^ x ≤ r ↔ x ≤ Int.log 2 r := by
  simpa using Int.zpow_le_iff_le_log (b := 2) one_lt_two hr

theorem lt_zpow_iff_log_two_lt {x : Int} {r : ℚ} (hr : 0 < r) :
    r < (2 : ℚ) ^ x ↔ Int.log 2 r < x := by
  simpa using Int.lt_zpow_iff_log_lt (b := 2) one_lt_two hr

theorem floorLog2_eq_log {num den : Nat} (hnum : 0 < num) (hden : 0 < den) :
    floorLog2 num den = Int.log 2 ((num : ℚ) / den) := by
  have hnum' : (0 : ℚ) < num := by exact_mod_cast hnum
  have hden' : (0 : ℚ) < den := by exact_mod_cast hden
  have hpos : (0 : ℚ) < (num : ℚ) / den := by positivity
  -- The bit lengths of the two parts leave two candidates, a guess and the one below it.
  have hlow : (2 : ℚ) ^ ((Nat.log2 num : Int) - Nat.log2 den - 1) ≤ (num : ℚ) / den := by
    have h₁ : (2 : ℚ) ^ Nat.log2 num ≤ num := by
      exact_mod_cast Nat.log2_self_le (by omega : num ≠ 0)
    have h₂ : (den : ℚ) ≤ 2 ^ (Nat.log2 den + 1) := by
      exact_mod_cast (Nat.lt_log2_self (n := den)).le
    rw [sub_sub, zpow_sub₀ two_ne_zero, zpow_natCast]
    exact div_le_div₀ hnum'.le h₁ hden' (by exact_mod_cast h₂)
  have hhigh : (num : ℚ) / den < (2 : ℚ) ^ ((Nat.log2 num : Int) - Nat.log2 den + 1) := by
    have h₁ : (num : ℚ) < 2 ^ (Nat.log2 num + 1) := by exact_mod_cast Nat.lt_log2_self
    have h₂ : (2 : ℚ) ^ Nat.log2 den ≤ den := by
      exact_mod_cast Nat.log2_self_le (by omega : den ≠ 0)
    rw [sub_add_eq_add_sub, zpow_sub₀ two_ne_zero, zpow_natCast]
    exact div_lt_div₀ (by exact_mod_cast h₁) h₂ (by positivity) (by positivity)
  rw [zpow_le_iff_le_log_two hpos] at hlow
  rw [lt_zpow_iff_log_two_lt hpos] at hhigh
  simp only [floorLog2]
  split
  · next h =>
    rw [two_zpow_le_ratio_iff hden, zpow_le_iff_le_log_two hpos] at h
    omega
  · next h =>
    rw [two_zpow_le_ratio_iff hden, zpow_le_iff_le_log_two hpos] at h
    omega

/-! ## Quotients -/

theorem roundQuotient_mul {c : Nat} (hc : 0 < c) (num den : Nat) :
    roundQuotient (c * num) (c * den) = roundQuotient num den := by
  have htwice : 2 * (c * (num % den)) = c * (2 * (num % den)) := by ring
  simp only [roundQuotient, Nat.mul_div_mul_left _ _ hc, Nat.mul_mod_mul_left, htwice,
    Nat.mul_lt_mul_left hc]

theorem roundQuotient_exact {den : Nat} (hden : 0 < den) (n : Nat) :
    roundQuotient (n * den) den = n := by
  simp [roundQuotient, hden]

namespace Binary64

theorem ofRatio_mul (negative : Bool) {c num den : Nat} (hc : 0 < c) (hden : 0 < den) :
    ofRatio negative (c * num) (c * den) = ofRatio negative num den := by
  by_cases hnum : num = 0
  · simp [ofRatio, hnum]
  · have hcnum : ¬c * num = 0 := by simp [hnum, hc.ne']
    have hlog : floorLog2 (c * num) (c * den) = floorLog2 num den := by
      rw [floorLog2_eq_log (Nat.mul_pos hc (by omega)) (Nat.mul_pos hc hden),
        floorLog2_eq_log (by omega) hden]
      have hc' : (c : ℚ) ≠ 0 := by exact_mod_cast hc.ne'
      push_cast
      rw [mul_div_mul_left _ _ hc']
    simp only [ofRatio, hcnum, hnum, if_false, hlog]
    rw [mul_assoc, mul_assoc, roundQuotient_mul hc]

/-- Equal quotients are rounded to the same number. -/
theorem ofRatio_congr (negative : Bool) {num den num' den' : Nat} (hden : 0 < den)
    (hden' : 0 < den') (h : num * den' = num' * den) :
    ofRatio negative num den = ofRatio negative num' den' := by
  rw [← ofRatio_mul negative hden' hden, ← ofRatio_mul negative hden hden', mul_comm den' num, h,
    mul_comm num' den, mul_comm den' den]

theorem log_mul_two_zpow {m : Nat} (hm : m ≠ 0) (e : Int) :
    Int.log 2 ((m : ℚ) * 2 ^ e) = Nat.log2 m + e := by
  have hm' : (0 : ℚ) < m := by exact_mod_cast Nat.pos_of_ne_zero hm
  have hpos : (0 : ℚ) < (m : ℚ) * 2 ^ e := by positivity
  have hlow : (Nat.log2 m : Int) + e ≤ Int.log 2 ((m : ℚ) * 2 ^ e) := by
    rw [← zpow_le_iff_le_log_two hpos, zpow_add₀ two_ne_zero, zpow_natCast]
    gcongr
    exact_mod_cast Nat.log2_self_le hm
  have hhigh : Int.log 2 ((m : ℚ) * 2 ^ e) < Nat.log2 m + e + 1 := by
    rw [← lt_zpow_iff_log_two_lt hpos, add_right_comm, zpow_add₀ two_ne_zero]
    gcongr
    exact_mod_cast Nat.lt_log2_self (n := m)
  omega

theorem ratio_magnitude (significand : Nat) (exponent : Int) :
    ((magnitude significand exponent).1 : ℚ) / (magnitude significand exponent).2
      = significand * 2 ^ exponent := by
  rcases Int.eq_nat_or_neg exponent with ⟨n, rfl | rfl⟩
  · have hneg : (-(n : Int)).toNat = 0 := by omega
    simp [magnitude, hneg]
  · have hneg : (-(n : Int)).toNat = 0 := by omega
    simp [magnitude, hneg, div_eq_mul_inv]

theorem magnitude_pos (significand : Nat) (exponent : Int) :
    0 < (magnitude significand exponent).2 := Nat.two_pow_pos _

/-- A number that can be represented is its own rounding. -/
theorem ofRatio_magnitude (negative : Bool) {significand : Nat} {exponent : Int}
    (h : IsCanonical significand exponent) (hne : significand ≠ 0) :
    ofRatio negative (magnitude significand exponent).1 (magnitude significand exponent).2
      = finite negative significand exponent h := by
  obtain ⟨hlt, hleast, -, hfull⟩ := id h
  have hnum : 0 < (magnitude significand exponent).1 :=
    Nat.mul_pos (Nat.pos_of_ne_zero hne) (Nat.two_pow_pos _)
  have hlog := log_mul_two_zpow hne exponent
  rw [← ratio_magnitude, ← floorLog2_eq_log hnum (magnitude_pos _ _)] at hlog
  have hbits : Nat.log2 significand ≤ 52 := by
    have := (Nat.log2_lt hne).mpr hlt
    omega
  have hexponent : max (floorLog2 (magnitude significand exponent).1
      (magnitude significand exponent).2 - 52) (-1074) = exponent := by
    rcases hfull with hfull | hfull
    · have := (Nat.le_log2 hne).mpr hfull
      omega
    · omega
  have hquotient : roundQuotient ((magnitude significand exponent).1 * 2 ^ (-exponent).toNat)
      ((magnitude significand exponent).2 * 2 ^ exponent.toNat) = significand := by
    have : (magnitude significand exponent).1 * 2 ^ (-exponent).toNat
        = significand * ((magnitude significand exponent).2 * 2 ^ exponent.toNat) := by
      simp only [magnitude]
      ring
    rw [this]
    exact roundQuotient_exact (Nat.mul_pos (Nat.two_pow_pos _) (Nat.two_pow_pos _)) _
  have hnum' : ¬(magnitude significand exponent).1 = 0 := hnum.ne'
  have hlt' : ¬significand = 2 ^ 53 := hlt.ne
  simp only [ofRatio, hnum', if_false, hexponent, hquotient, hlt', pack]
  exact dif_pos h

/-! ## Decimals -/

/-- A number with the given sign. -/
def signed (negative : Bool) : Binary64 → Binary64
  | nan => nan
  | infinity _ => infinity negative
  | finite _ significand exponent h => finite negative significand exponent h

theorem pack_signed (negative : Bool) (significand : Nat) (exponent : Int) :
    pack negative significand exponent = (pack false significand exponent).signed negative := by
  unfold pack
  split <;> rfl

theorem ofRatio_signed (negative : Bool) (num den : Nat) :
    ofRatio negative num den = (ofRatio false num den).signed negative := by
  simp only [ofRatio]
  split
  · rfl
  · split
    · exact pack_signed ..
    · exact pack_signed ..

theorem ofDecimal_signed (negative : Bool) (d : Decimal) :
    ofDecimal negative d = (ofDecimal false d).signed negative := by
  unfold ofDecimal
  split
  · rfl
  split
  · rfl
  split
  · rfl
  · exact ofRatio_signed ..

theorem length_toDigits_mul_pow {m : Nat} (hm : 0 < m) (k : Nat) :
    (Nat.toDigits 10 (m * 10 ^ k)).length = (Nat.toDigits 10 m).length + k := by
  induction k with
  | zero => simp
  | succ k ih =>
    have h := Nat.toDigits_append_toDigits (b := 10) (n := m * 10 ^ k) (d := 0) (by decide)
      (by positivity) (by decide)
    have hmul : m * 10 ^ (k + 1) = 10 * (m * 10 ^ k) + 0 := by ring
    rw [hmul, ← h, List.length_append, ih, Nat.toDigits_zero, List.length_singleton, add_assoc]

/-- Zeros at the end of the digits do not matter. -/
theorem ofDecimal_scale (negative : Bool) (m k : Nat) (e : Int) :
    ofDecimal negative ⟨m * 10 ^ k, e - k⟩ = ofDecimal negative ⟨m, e⟩ := by
  by_cases hm : m = 0
  · simp [ofDecimal, hm]
  · have hne : ¬m * 10 ^ k = 0 := by positivity
    have hsize : Decimal.size ⟨m * 10 ^ k, e - k⟩ = Decimal.size ⟨m, e⟩ + k :=
      length_toDigits_mul_pow (Nat.pos_of_ne_zero hm) k
    have hplace : e - k + ((Decimal.size ⟨m, e⟩ + k : Nat) : Int)
        = e + (Decimal.size ⟨m, e⟩ : Int) := by
      push_cast
      ring
    have hratio : ofRatio negative (m * 10 ^ k * 10 ^ (e - k).toNat) (10 ^ (-(e - k)).toNat)
        = ofRatio negative (m * 10 ^ e.toNat) (10 ^ (-e).toNat) := by
      apply ofRatio_congr negative (by positivity) (by positivity)
      rw [mul_assoc m, mul_assoc m, mul_assoc m, ← pow_add, ← pow_add, ← pow_add]
      congr 2
      omega
    simp only [ofDecimal, hne, hm, if_false, hsize, hplace, hratio]

theorem exponent_add_size_le {significand : Nat} {exponent : Int}
    (h : IsCanonical significand exponent) :
    (allDigits significand exponent).exponent + (allDigits significand exponent).size ≤ 310 := by
  obtain ⟨hlt, -, hle, -⟩ := h
  rcases Int.eq_nat_or_neg exponent with ⟨n, rfl | rfl⟩
  · have hdigits : significand * 2 ^ n < 10 ^ 310 := calc
      significand * 2 ^ n < 2 ^ 53 * 2 ^ n := by gcongr
      _ ≤ 2 ^ 53 * 2 ^ 971 := Nat.mul_le_mul_left _ (Nat.pow_le_pow_right (by decide) (by omega))
      _ < 10 ^ 310 := by decide +kernel
    have hneg : (-(n : Int)).toNat = 0 := by omega
    have hsize := (Nat.length_toDigits_le_iff (b := 10) (by decide) (by decide)).mpr hdigits
    simp only [allDigits, Decimal.size, Int.toNat_natCast, hneg, pow_zero, mul_one]
    omega
  · have hdigits : significand * 5 ^ n < 10 ^ (310 + n) := calc
      significand * 5 ^ n < 2 ^ 53 * 5 ^ n := by gcongr
      _ ≤ 10 ^ 310 * 10 ^ n := by
        have hbits : 2 ^ 53 ≤ 10 ^ 310 := by decide +kernel
        exact Nat.mul_le_mul hbits (Nat.pow_le_pow_left (by decide) n)
      _ = 10 ^ (310 + n) := by rw [pow_add]
    have hneg : (-(n : Int)).toNat = 0 := by omega
    have hsize := (Nat.length_toDigits_le_iff (b := 10) (by decide) (by omega)).mpr hdigits
    simp only [allDigits, Decimal.size, neg_neg, Int.toNat_natCast, hneg, pow_zero, mul_one]
    omega

theorem le_exponent_add_size {significand : Nat} {exponent : Int}
    (h : IsCanonical significand exponent) (hne : significand ≠ 0) :
    -330 ≤ (allDigits significand exponent).exponent + (allDigits significand exponent).size := by
  obtain ⟨-, hleast, -, -⟩ := h
  have hone := Nat.length_toDigits_pos (b := 10) (n := (allDigits significand exponent).digits)
  rcases Int.eq_nat_or_neg exponent with ⟨n, rfl | rfl⟩
  · simp only [allDigits, Decimal.size]
    omega
  · by_cases hn : n ≤ 331
    · simp only [allDigits, Decimal.size] at hone ⊢
      omega
    · obtain ⟨k, rfl⟩ := Nat.exists_eq_add_of_le (by omega : 331 ≤ n)
      have hdigits : 10 ^ k ≤ significand * 5 ^ (331 + k) := calc
        10 ^ k = 2 ^ k * 5 ^ k := Nat.mul_pow 2 5 k
        _ ≤ 2 ^ 743 * 5 ^ k :=
          Nat.mul_le_mul_right _ (Nat.pow_le_pow_right (by decide) (by omega))
        _ ≤ 5 ^ 331 * 5 ^ k := by
          have hpow : 2 ^ 743 ≤ 5 ^ 331 := by decide +kernel
          exact Nat.mul_le_mul_right _ hpow
        _ = 5 ^ (331 + k) := by rw [pow_add]
        _ ≤ significand * 5 ^ (331 + k) := Nat.le_mul_of_pos_left _ (Nat.pos_of_ne_zero hne)
      have hneg : (-((331 + k : Nat) : Int)).toNat = 0 := by omega
      have hsize : k < (Nat.toDigits 10 (significand * 5 ^ (331 + k))).length := by
        rcases Nat.eq_zero_or_pos k with rfl | hk
        · exact Nat.length_toDigits_pos
        · exact not_le.mp fun hle => absurd
            ((Nat.length_toDigits_le_iff (b := 10) (by decide) hk).mp hle) (not_lt.mpr hdigits)
      simp only [allDigits, Decimal.size, neg_neg, Int.toNat_natCast, hneg, pow_zero, mul_one]
      omega

/-- All digits of a number read back as the number. -/
theorem ofDecimal_allDigits (negative : Bool) {significand : Nat} {exponent : Int}
    (h : IsCanonical significand exponent) (hne : significand ≠ 0) :
    ofDecimal negative (allDigits significand exponent)
      = finite negative significand exponent h := by
  have hhigh := exponent_add_size_le h
  have hlow := le_exponent_add_size h hne
  have hdigits : ¬(allDigits significand exponent).digits = 0 := by
    simp only [allDigits]
    positivity
  have hratio : ofRatio negative
      ((allDigits significand exponent).digits
        * 10 ^ (allDigits significand exponent).exponent.toNat)
      (10 ^ (-(allDigits significand exponent).exponent).toNat)
      = finite negative significand exponent h := by
    rw [← ofRatio_magnitude negative h hne]
    apply ofRatio_congr negative (by positivity) (magnitude_pos _ _)
    rcases Int.eq_nat_or_neg exponent with ⟨n, rfl | rfl⟩
    · have hneg : (-(n : Int)).toNat = 0 := by omega
      simp [allDigits, magnitude, hneg]
    · have hneg : (-(n : Int)).toNat = 0 := by omega
      simp only [allDigits, magnitude, neg_neg, Int.toNat_natCast, hneg, pow_zero, mul_one,
        min_eq_left (by omega : -(n : Int) ≤ 0)]
      have hten : 5 * 2 = 10 := rfl
      rw [mul_assoc, ← mul_pow, hten]
  rw [ofDecimal, if_neg hdigits, if_neg (by omega), if_neg (by omega), hratio]

theorem pack_eq_finite (negative : Bool) {significand : Nat} {exponent : Int}
    (h : IsCanonical significand exponent) :
    pack negative significand exponent = finite negative significand exponent h := dif_pos h

/-- The digits that are chosen for a number read back as the number. -/
theorem ofDecimal_shortest (negative : Bool) {significand : Nat} {exponent : Int}
    (h : IsCanonical significand exponent) (hne : significand ≠ 0) :
    ofDecimal negative (shortest significand exponent)
      = finite negative significand exponent h := by
  have hread : ofDecimal false (shortest significand exponent)
      = finite false significand exponent h := by
    unfold shortest
    dsimp only
    generalize hfound : List.find? _ _ = found
    cases found with
    | none => exact ofDecimal_allDigits false h hne
    | some d =>
      have := List.find?_some hfound
      rw [decide_eq_true_eq] at this
      rw [Option.getD_some, this, pack_eq_finite]
  rw [ofDecimal_signed, hread]
  rfl

end Binary64

end Grimoire
