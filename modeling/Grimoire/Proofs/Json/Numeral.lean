import Grimoire.Json.Reader
import Grimoire.Json.Printer
import Grimoire.Proofs.Number.Rounding

/-!
# Numerals read back

Behind a numeral, reading goes on at the first code point that no numeral or word can hold. The text
of an integer reads back as the integer if it has few enough digits (`Json.atom?_ofInt`), and the
text of a floating-point number always reads back as the same number (`Json.atom?_floatText`), so
each of the two kinds of text determines its number (`Text.ofInt_injective`,
`Json.floatText_injective`).
-/

namespace Grimoire

/-! ## Digits -/

namespace Text

theorem ofNat_ne_nil (n : Nat) : ofNat n ≠ [] := by
  simp [ofNat, Nat.toDigits_ne_nil]

theorem length_ofNat (n : Nat) : (ofNat n).length = (Nat.toDigits 10 n).length := by
  simp [ofNat]

theorem isDigit_of_mem_ofNat {n : Nat} {c : CodePoint} (h : c ∈ ofNat n) :
    Json.isDigit c = true := by
  obtain ⟨d, hd, rfl⟩ := List.mem_map.mp h
  exact Nat.isDigit_of_mem_toDigits (by decide) (by decide) hd

/-- The digits of a positive number do not start with a zero. -/
theorem head_ofNat {n : Nat} (hn : 0 < n) : (ofNat n).head? ≠ some (.scalar '0') := by
  induction n using Nat.strongRecOn with
  | ind n ih =>
    by_cases hlt : n < 10
    · rw [ofNat, Nat.toDigits_of_lt_base hlt]
      simpa using hn.ne'
    · have hdiv : 0 < n / 10 := by omega
      have hhead := ih (n / 10) (by omega) hdiv
      rw [ofNat, Nat.toDigits_of_base_le (by decide) (by omega), List.map_append,
        List.head?_append_of_ne_nil]
      · exact hhead
      · simp [Nat.toDigits_ne_nil]

end Text

namespace Json

theorem foldl_digits (n : Nat) (digits : Text) :
    digits.foldl (fun n c => 10 * n + (c.val - 48)) n
      = n * 10 ^ digits.length + digitsValue digits := by
  induction digits generalizing n with
  | nil => simp [digitsValue]
  | cons c digits ih =>
    simp only [digitsValue, List.foldl_cons, List.length_cons] at ih ⊢
    rw [ih, ih (10 * 0 + _)]
    ring

theorem digitsValue_append (a b : Text) :
    digitsValue (a ++ b) = digitsValue a * 10 ^ b.length + digitsValue b := by
  rw [digitsValue, List.foldl_append, foldl_digits]
  rfl

theorem digitsValue_lt {digits : Text} (each : ∀ c ∈ digits, isDigit c = true) :
    digitsValue digits < 10 ^ digits.length := by
  induction digits with
  | nil => exact Nat.one_pos
  | cons c digits ih =>
    rw [List.forall_mem_cons] at each
    have first : digitsValue [c] ≤ 9 := by
      cases c with
      | scalar c =>
        have digit : c.isDigit = true := each.1
        simp only [Char.isDigit, Bool.and_eq_true, decide_eq_true_eq] at digit
        have most : c.toNat ≤ 57 := digit.2
        simp only [digitsValue, List.foldl_cons, List.foldl_nil, CodePoint.val]
        omega
      | surrogate s => exact absurd each.1 (by simp [isDigit, CodePoint.satisfies])
    have rest := ih each.2
    rw [← List.singleton_append, digitsValue_append, List.length_append, List.length_singleton,
      Nat.add_comm 1, Nat.pow_succ]
    calc digitsValue [c] * 10 ^ digits.length + digitsValue digits
        < 9 * 10 ^ digits.length + 10 ^ digits.length :=
          Nat.add_lt_add_of_le_of_lt (Nat.mul_le_mul_right _ first) rest
      _ = 10 ^ digits.length * 10 := by ring

theorem digitsValue_zeros (n : Nat) : digitsValue (List.replicate n (.scalar '0')) = 0 := by
  induction n with
  | zero => rfl
  | succ n ih =>
    have hone : digitsValue [.scalar '0'] = 0 := rfl
    rw [List.replicate_succ', digitsValue_append, ih, hone, Nat.zero_mul]

@[simp]
theorem digitsValue_ofNat (n : Nat) : digitsValue (Text.ofNat n) = n := by
  induction n using Nat.strongRecOn with
  | ind n ih =>
    by_cases hlt : n < 10
    · rw [Text.ofNat, Nat.toDigits_of_lt_base hlt]
      simp [digitsValue, CodePoint.val, Nat.toNat_digitChar_of_lt_ten hlt]
    · have hlast : n % 10 < 10 := Nat.mod_lt _ (by decide)
      have hdiv := ih (n / 10) (by omega)
      rw [Text.ofNat, Nat.toDigits_of_base_le (by decide) (by omega), List.map_append]
      rw [Text.ofNat] at hdiv
      rw [digitsValue_append, hdiv]
      simp only [List.map_cons, List.map_nil, List.length_singleton, pow_one, digitsValue,
        List.foldl_cons, List.foldl_nil, CodePoint.val, Nat.toNat_digitChar_of_lt_ten hlast]
      omega

/-! ## The parts of a numeral -/

theorem wholePart?_eq_some {s whole rest : Text} (h : wholePart? s = some (whole, rest)) :
    s = whole ++ rest ∧ ∀ c ∈ whole, isDigit c = true := by
  unfold wholePart? at h
  split at h
  · obtain ⟨rfl, rfl⟩ := Prod.mk.inj (Option.some.inj h)
    exact ⟨rfl, by decide⟩
  · split at h
    · obtain ⟨rfl, rfl⟩ := Prod.mk.inj (Option.some.inj h)
      exact ⟨List.takeWhile_append_dropWhile.symm, List.all_eq_true.mp List.all_takeWhile⟩
    · exact absurd h (by simp)
  · exact absurd h (by simp)

/-- Whether a code point can stand in a numeral or a word. -/
def isAtomic (c : CodePoint) : Bool :=
  c.satisfies fun c => c.isAlphanum || c = '.' || c = '+' || c = '-'

/-- Whether no numeral and no word goes on at the start of a text. -/
def IsClosed (rest : Text) : Prop := ∀ c ∈ rest.head?, isAtomic c = false

/-- Whether no digit stands at the start of a text. -/
def EndsDigits (rest : Text) : Prop := ∀ c ∈ rest.head?, isDigit c = false

theorem isAtomic_of_isDigit {c : CodePoint} (h : isDigit c = true) : isAtomic c = true := by
  cases c with
  | scalar c =>
    simp only [isDigit, CodePoint.satisfies] at h
    simp [isAtomic, CodePoint.satisfies, Char.isAlphanum, h]
  | surrogate s => exact absurd h (by simp [isDigit, CodePoint.satisfies])

theorem val_lt_of_isDigit {c : CodePoint} (h : isDigit c = true) : c.val < 0x80 := by
  cases c with
  | scalar c =>
    simp only [isDigit, CodePoint.satisfies, Char.isDigit, Bool.and_eq_true, decide_eq_true_eq] at h
    have small : c.val.toNat ≤ 57 := UInt32.le_iff_toNat_le.mp h.2
    exact small.trans_lt (by decide)
  | surrogate s => exact absurd h (by simp [isDigit, CodePoint.satisfies])

theorem IsClosed.endsDigits {rest : Text} (h : IsClosed rest) : EndsDigits rest := by
  intro c hc
  rw [Bool.eq_false_iff]
  intro hdigit
  exact absurd (isAtomic_of_isDigit hdigit) (by simp [h c hc])

theorem endsDigits_cons {c : CodePoint} {rest : Text} (h : isDigit c = false) :
    EndsDigits (c :: rest) := by
  simpa [EndsDigits] using h

theorem spanDigits_append {digits rest : Text} (hdigits : ∀ c ∈ digits, isDigit c = true)
    (hrest : EndsDigits rest) : spanDigits (digits ++ rest) = (digits, rest) := by
  have htake : rest.takeWhile isDigit = [] := by
    cases rest with
    | nil => rfl
    | cons c rest => simp [hrest c rfl]
  have hdrop : rest.dropWhile isDigit = rest := by
    cases rest with
    | nil => rfl
    | cons c rest => simp [hrest c rfl]
  rw [spanDigits, List.takeWhile_append_of_pos hdigits, List.dropWhile_append_of_pos hdigits, htake,
    hdrop, List.append_nil]

theorem wholePart?_zero (rest : Text) :
    wholePart? (.scalar '0' :: rest) = some ([.scalar '0'], rest) := rfl

theorem wholePart?_append {digits rest : Text} (hdigits : ∀ c ∈ digits, isDigit c = true)
    (hne : digits ≠ []) (hhead : digits.head? ≠ some (.scalar '0')) (hrest : EndsDigits rest) :
    wholePart? (digits ++ rest) = some (digits, rest) := by
  obtain ⟨c, digits, rfl⟩ := List.exists_cons_of_ne_nil hne
  have hspan := spanDigits_append hdigits hrest
  have hc : isDigit c = true := hdigits c (by simp)
  rw [List.cons_append] at hspan ⊢
  unfold wholePart?
  split
  · next heq => simp_all
  · next heq => simp_all
  · next heq => exact absurd heq (by simp)

theorem wholePart?_ofNat (n : Nat) {rest : Text} (hrest : EndsDigits rest) :
    wholePart? (Text.ofNat n ++ rest) = some (Text.ofNat n, rest) := by
  rcases Nat.eq_zero_or_pos n with rfl | hn
  · rfl
  · exact wholePart?_append (fun c => Text.isDigit_of_mem_ofNat) (Text.ofNat_ne_nil n)
      (Text.head_ofNat hn) hrest

theorem fraction_append {digits rest : Text} (hdigits : ∀ c ∈ digits, isDigit c = true)
    (hne : digits ≠ []) (hrest : EndsDigits rest) :
    fraction (.scalar '.' :: (digits ++ rest)) = (digits, rest) := by
  obtain ⟨c, digits, rfl⟩ := List.exists_cons_of_ne_nil hne
  have hc : isDigit c = true := hdigits c (by simp)
  simp only [fraction, List.cons_append, hc, if_true]
  exact spanDigits_append hdigits hrest

theorem fraction_none {rest : Text} (hrest : ∀ c ∈ rest.head?, c ≠ .scalar '.') :
    fraction rest = ([], rest) := by
  unfold fraction
  split
  · exact absurd rfl (hrest _ rfl)
  · rfl

theorem power_append {digits rest : Text} (negative : Bool)
    (hdigits : ∀ c ∈ digits, isDigit c = true) (hne : digits ≠ []) (hrest : EndsDigits rest) :
    power (.scalar 'e' :: .scalar (if negative then '-' else '+') :: (digits ++ rest))
      = (some (if negative then -(digitsValue digits : Int) else digitsValue digits), rest) := by
  cases negative <;> simp [power, sign, spanDigits_append hdigits hrest, hne]

theorem power_none {rest : Text} (hrest : IsClosed rest) : power rest = (none, rest) := by
  cases rest with
  | nil => rfl
  | cons c rest =>
    have hc := hrest c rfl
    cases c with
    | surrogate s => rfl
    | scalar c =>
      have he : ¬(c = 'e' ∨ c = 'E') := by
        rintro (rfl | rfl) <;> exact absurd hc (by decide)
      simp [power, he]

/-- A numeral of digits alone is an integer. -/
theorem unsigned?_ofNat (negative : Bool) {n : Nat} {rest : Text}
    (hfew : (Nat.toDigits 10 n).length ≤ digitLimit) (hrest : IsClosed rest) :
    unsigned? negative (Text.ofNat n ++ rest)
      = some (.ok (int (if negative then -(n : Int) else n)), rest) := by
  have hfraction : fraction rest = ([], rest) := by
    apply fraction_none
    rintro c hc rfl
    exact absurd (hrest _ hc) (by decide)
  have hfew' : ¬digitLimit < (Text.ofNat n).length := by rw [Text.length_ofNat]; omega
  simp [unsigned?, wholePart?_ofNat n hrest.endsDigits, hfraction, power_none hrest, hfew']

/-- A numeral with a fraction or a power of ten is a floating-point number. -/
theorem unsigned?_eq_float (negative : Bool) {s r₁ r₂ r₃ whole decimals : Text}
    {exponent : Option Int} (hwhole : wholePart? s = some (whole, r₁))
    (hdecimals : fraction r₁ = (decimals, r₂)) (hexponent : power r₂ = (exponent, r₃))
    (hne : decimals ≠ [] ∨ exponent ≠ none) :
    unsigned? negative s = some (.ok (float (Binary64.ofDecimal negative
      ⟨digitsValue (whole ++ decimals), exponent.getD 0 - decimals.length⟩)), r₃) := by
  have hfalse : (decimals.isEmpty && exponent.isNone) = false := by
    rcases hne with hne | hne
    · simp [hne]
    · cases exponent with
      | none => exact absurd rfl hne
      | some e => simp
  simp [unsigned?, hwhole, hdecimals, hexponent, hfalse]

/-- A numeral with a fraction and no power of ten. -/
theorem unsigned?_fraction (negative : Bool) (whole decimals : Text) {rest : Text}
    (hwhole : ∀ r, EndsDigits r → wholePart? (whole ++ r) = some (whole, r))
    (hdecimals : ∀ c ∈ decimals, isDigit c = true) (hne : decimals ≠ []) (hrest : IsClosed rest) :
    unsigned? negative (whole ++ .scalar '.' :: (decimals ++ rest))
      = some (.ok (float (Binary64.ofDecimal negative
        ⟨digitsValue (whole ++ decimals), -decimals.length⟩)), rest) := by
  have h := unsigned?_eq_float negative (hwhole _ (endsDigits_cons (by decide)))
    (fraction_append hdecimals hne hrest.endsDigits) (power_none hrest) (.inl hne)
  simpa using h

/-! ## Written numbers -/

theorem isDigit_zeros {n : Nat} {c : CodePoint} (h : c ∈ List.replicate n (CodePoint.scalar '0')) :
    isDigit c = true := by
  rw [List.eq_of_mem_replicate h]
  decide

/-- The digits are put behind a point and zeros. -/
theorem unsigned?_small (negative : Bool) (m zeros : Nat) {rest : Text} (hrest : IsClosed rest) :
    unsigned? negative ("0." ++ List.replicate zeros (CodePoint.scalar '0') ++ Text.ofNat m ++ rest)
      = some (.ok (float (Binary64.ofDecimal negative
        ⟨m, -(zeros + (Text.ofNat m).length : Nat)⟩)), rest) := by
  have hdigits : ∀ c ∈ List.replicate zeros (CodePoint.scalar '0') ++ Text.ofNat m,
      isDigit c = true := by
    intro c hc
    rcases List.mem_append.mp hc with hc | hc
    · exact isDigit_zeros hc
    · exact Text.isDigit_of_mem_ofNat hc
  have h := unsigned?_fraction negative [.scalar '0'] _ (fun r _ => wholePart?_zero r)
    hdigits (by simp [Text.ofNat_ne_nil]) hrest
  have hvalue : digitsValue ([.scalar '0']
      ++ (List.replicate zeros (CodePoint.scalar '0') ++ Text.ofNat m)) = m := by
    have hzeros : [CodePoint.scalar '0'] ++ List.replicate zeros (CodePoint.scalar '0')
        = List.replicate (zeros + 1) (CodePoint.scalar '0') := rfl
    rw [← List.append_assoc, hzeros, digitsValue_append, digitsValue_zeros, Nat.zero_mul,
      Nat.zero_add, digitsValue_ofNat]
  rw [hvalue, List.length_append, List.length_replicate] at h
  rw [← h]
  simp [Text.ofString]

/-- Zeros and a point are put behind the digits. -/
theorem unsigned?_large (negative : Bool) {m : Nat} (hm : 0 < m) (zeros : Nat) {rest : Text}
    (hrest : IsClosed rest) :
    unsigned? negative (Text.ofNat m ++ List.replicate zeros (CodePoint.scalar '0') ++ ".0" ++ rest)
      = some (.ok (float (Binary64.ofDecimal negative ⟨m, zeros⟩)), rest) := by
  have hdigits : ∀ c ∈ Text.ofNat m ++ List.replicate zeros (CodePoint.scalar '0'),
      isDigit c = true := by
    intro c hc
    rcases List.mem_append.mp hc with hc | hc
    · exact Text.isDigit_of_mem_ofNat hc
    · exact isDigit_zeros hc
  have hhead : (Text.ofNat m ++ List.replicate zeros (CodePoint.scalar '0')).head?
      ≠ some (.scalar '0') := by
    rw [List.head?_append_of_ne_nil _ (Text.ofNat_ne_nil m)]
    exact Text.head_ofNat hm
  have h := unsigned?_fraction negative _ [.scalar '0']
    (fun r hr => wholePart?_append hdigits (by simp [Text.ofNat_ne_nil]) hhead hr)
    (by decide) (by simp) hrest
  have hvalue : digitsValue (Text.ofNat m ++ List.replicate zeros (CodePoint.scalar '0')
      ++ [.scalar '0']) = m * 10 ^ (zeros + 1) := by
    have hzeros : List.replicate zeros (CodePoint.scalar '0') ++ [CodePoint.scalar '0']
        = List.replicate (zeros + 1) (CodePoint.scalar '0') := List.replicate_succ'.symm
    rw [List.append_assoc, hzeros, digitsValue_append, digitsValue_ofNat, digitsValue_zeros,
      List.length_replicate, Nat.add_zero]
  have hscale := Binary64.ofDecimal_scale negative m (zeros + 1) zeros
  have hexponent : (zeros : Int) - (zeros + 1 : Nat) = -(1 : Nat) := by omega
  rw [hexponent] at hscale
  rw [hvalue, List.length_singleton, hscale] at h
  rw [← h]
  simp [Text.ofString]

/-- A point is put between the digits. -/
theorem unsigned?_middle (negative : Bool) {m : Nat} (hm : 0 < m) {whole : Nat} (hpos : 0 < whole)
    (hlt : whole < (Text.ofNat m).length) {rest : Text} (hrest : IsClosed rest) :
    unsigned? negative ((Text.ofNat m).take whole ++ "." ++ (Text.ofNat m).drop whole ++ rest)
      = some (.ok (float (Binary64.ofDecimal negative
        ⟨m, -((Text.ofNat m).length - whole : Nat)⟩)), rest) := by
  have htake : ∀ c ∈ (Text.ofNat m).take whole, isDigit c = true := fun c hc =>
    Text.isDigit_of_mem_ofNat (List.mem_of_mem_take hc)
  have hdrop : ∀ c ∈ (Text.ofNat m).drop whole, isDigit c = true := fun c hc =>
    Text.isDigit_of_mem_ofNat (List.mem_of_mem_drop hc)
  have hne : (Text.ofNat m).take whole ≠ [] := by
    intro h
    have := congrArg List.length h
    simp only [List.length_take, List.length_nil] at this
    omega
  have hhead : ((Text.ofNat m).take whole).head? ≠ some (.scalar '0') := by
    rw [List.head?_take, if_neg (by omega)]
    exact Text.head_ofNat hm
  have h := unsigned?_fraction negative _ _ (fun r hr => wholePart?_append htake hne hhead hr)
    hdrop (by simpa using hlt) hrest
  rw [List.take_append_drop, digitsValue_ofNat, List.length_drop] at h
  rw [← h]
  simp [Text.ofString]

/-- How a power of ten is written, with at least two digits. -/
def powerText (lead : Int) : Text :=
  (if lead < 0 then "e-" else "e+" : Text)
    ++ (if (Text.ofNat lead.natAbs).length = 1 then "0" ++ Text.ofNat lead.natAbs
      else Text.ofNat lead.natAbs)

theorem exponential_eq (digits : Text) (lead : Int) :
    NumberFormat.exponential digits lead
      = digits.take 1 ++ (if digits.length ≤ 1 then ([] : Text) else "." ++ digits.drop 1)
        ++ powerText lead := by
  simp [NumberFormat.exponential, powerText]

theorem head_powerText (lead : Int) (rest : Text) :
    (powerText lead ++ rest).head? = some (.scalar 'e') := by
  unfold powerText
  split <;> rfl

theorem power_powerText (lead : Int) {rest : Text} (hrest : IsClosed rest) :
    power (powerText lead ++ rest) = (some lead, rest) := by
  unfold powerText
  generalize hpadded : (if (Text.ofNat lead.natAbs).length = 1 then "0" ++ Text.ofNat lead.natAbs
    else Text.ofNat lead.natAbs : Text) = padded
  have hdigits : ∀ c ∈ padded, isDigit c = true := by
    intro c hc
    rw [← hpadded] at hc
    split at hc
    · rcases List.mem_cons.mp hc with rfl | hc
      · decide
      · exact Text.isDigit_of_mem_ofNat hc
    · exact Text.isDigit_of_mem_ofNat hc
  have hne : padded ≠ [] := by
    rw [← hpadded]
    split
    · exact List.cons_ne_nil _ _
    · exact Text.ofNat_ne_nil _
  have hvalue : digitsValue padded = lead.natAbs := by
    rw [← hpadded]
    split
    · have hone : digitsValue ("0" : Text) = 0 := rfl
      rw [digitsValue_append, hone, Nat.zero_mul, Nat.zero_add, digitsValue_ofNat]
    · exact digitsValue_ofNat _
  have h := power_append (decide (lead < 0)) hdigits hne hrest.endsDigits
  rw [hvalue] at h
  by_cases hneg : lead < 0
  · have hlead : -(lead.natAbs : Int) = lead := by omega
    simp only [hneg, decide_true, if_true, hlead] at h ⊢
    exact h
  · have hlead : (lead.natAbs : Int) = lead := by omega
    simp only [hneg, decide_false, Bool.false_eq_true, if_false, hlead] at h ⊢
    exact h

/-- A point is put behind the first digit, and a power of ten at the end. -/
theorem unsigned?_exponential (negative : Bool) {m : Nat} (hm : 0 < m) (lead : Int) {rest : Text}
    (hrest : IsClosed rest) :
    unsigned? negative (NumberFormat.exponential (Text.ofNat m) lead ++ rest)
      = some (.ok (float (Binary64.ofDecimal negative
        ⟨m, lead - ((Text.ofNat m).length - 1 : Nat)⟩)), rest) := by
  have hpower := power_powerText lead hrest
  have hend : EndsDigits (powerText lead ++ rest) := by
    intro c hc
    obtain rfl : CodePoint.scalar 'e' = c :=
      Option.some.inj ((head_powerText lead rest).symm.trans hc)
    decide
  have htake : ∀ c ∈ (Text.ofNat m).take 1, isDigit c = true := fun c hc =>
    Text.isDigit_of_mem_ofNat (List.mem_of_mem_take hc)
  have hhead : ((Text.ofNat m).take 1).head? ≠ some (.scalar '0') := by
    rw [List.head?_take, if_neg (by decide)]
    exact Text.head_ofNat hm
  have hne : (Text.ofNat m).take 1 ≠ [] := by
    simpa using Text.ofNat_ne_nil m
  rw [exponential_eq]
  by_cases hone : (Text.ofNat m).length ≤ 1
  · have hnone : fraction (powerText lead ++ rest) = ([], powerText lead ++ rest) := by
      apply fraction_none
      intro c hc
      obtain rfl : CodePoint.scalar 'e' = c :=
        Option.some.inj ((head_powerText lead rest).symm.trans hc)
      decide
    have h := unsigned?_eq_float negative (wholePart?_append htake hne hhead hend) hnone hpower
      (.inr (by simp))
    have hexponent : lead - ((Text.ofNat m).length - 1 : Nat) = lead := by omega
    rw [List.append_nil, List.take_of_length_le hone, digitsValue_ofNat] at h
    rw [if_pos hone, hexponent, List.take_of_length_le hone, List.append_nil]
    simpa using h
  · have hdrop : ∀ c ∈ (Text.ofNat m).drop 1, isDigit c = true := fun c hc =>
      Text.isDigit_of_mem_ofNat (List.mem_of_mem_drop hc)
    have hdrop' : (Text.ofNat m).drop 1 ≠ [] := by
      rw [ne_eq, List.drop_eq_nil_iff]
      exact hone
    have h := unsigned?_eq_float negative
      (wholePart?_append htake hne hhead (endsDigits_cons (by decide)))
      (fraction_append hdrop hdrop' hend) hpower (.inr (by simp))
    rw [List.take_append_drop, digitsValue_ofNat, List.length_drop] at h
    simpa [hone, Text.ofString] using h

/-- What is written for a decimal reads back as the number nearest to it. -/
theorem unsigned?_write (negative : Bool) {d : Decimal} (hd : 0 < d.digits) {rest : Text}
    (hrest : IsClosed rest) :
    unsigned? negative (numberFormat.write d ++ rest)
      = some (.ok (float (Binary64.ofDecimal negative d)), rest) := by
  have hpos : 0 < (Text.ofNat d.digits).length :=
    List.length_pos_of_ne_nil (Text.ofNat_ne_nil d.digits)
  simp only [NumberFormat.write]
  generalize hlead : d.exponent + (Text.ofNat d.digits).length - 1 = lead
  split
  · rw [NumberFormat.positional]
    split
    · have h := unsigned?_small negative d.digits (-lead - 1).toNat hrest
      have hexponent : -(((-lead - 1).toNat + (Text.ofNat d.digits).length : Nat) : Int)
          = d.exponent := by omega
      rwa [hexponent] at h
    · dsimp only
      split
      · have h := unsigned?_large negative hd
          (lead.toNat + 1 - (Text.ofNat d.digits).length) hrest
        have hexponent : ((lead.toNat + 1 - (Text.ofNat d.digits).length : Nat) : Int)
            = d.exponent := by omega
        rwa [hexponent] at h
      · have h := unsigned?_middle negative hd (Nat.succ_pos lead.toNat) (by omega) hrest
        have hexponent : -(((Text.ofNat d.digits).length - (lead.toNat + 1) : Nat) : Int)
            = d.exponent := by omega
        rwa [hexponent] at h
  · have h := unsigned?_exponential negative hd lead hrest
    have hexponent : lead - ((Text.ofNat d.digits).length - 1 : Nat) = d.exponent := by omega
    rwa [hexponent] at h

/-! ## Numbers and words -/

theorem digit_of_unsigned? {negative : Bool} {s r : Text} {v : Except Stop Json}
    (h : unsigned? negative s = some (v, r)) : ∃ c t, s = c :: t ∧ isDigit c = true := by
  unfold unsigned? at h
  cases s with
  | nil => exact absurd h (by simp [wholePart?])
  | cons c t =>
    refine ⟨c, t, rfl, ?_⟩
    by_cases hzero : c = .scalar '0'
    · rw [hzero]
      decide
    · by_contra hc
      have hnone : wholePart? (c :: t) = none := by
        unfold wholePart?
        split
        · next heq => exact absurd (List.cons.inj heq).1 hzero
        · next heq =>
          obtain ⟨rfl, -⟩ := List.cons.inj heq
          exact if_neg hc
        · rfl
      rw [hnone] at h
      exact absurd h (by simp)

theorem words_digit {c : CodePoint} (hc : isDigit c = true) (negative : Bool) (t : Text) :
    words.find? (fun entry => entry.1.isPrefixOf ((if negative then "-" else "" : Text) ++ c :: t))
      = none := by
  have hletter : ∀ d : CodePoint, isDigit d = false → (d == c) = false := by
    intro d hd
    rw [beq_eq_false_iff_ne]
    rintro rfl
    exact absurd hc (by simp [hd])
  have hn := hletter (.scalar 'n') (by decide)
  have ht := hletter (.scalar 't') (by decide)
  have hf := hletter (.scalar 'f') (by decide)
  have hN := hletter (.scalar 'N') (by decide)
  have hI := hletter (.scalar 'I') (by decide)
  have hminus := hletter (.scalar '-') (by decide)
  cases negative <;>
    simp [words, Text.ofString, List.isPrefixOf, hn, ht, hf, hN, hI, hminus]

theorem atom?_eq_unsigned? {negative : Bool} {s r : Text} {v : Except Stop Json}
    (h : unsigned? negative s = some (v, r)) :
    atom? ((if negative then "-" else "" : Text) ++ s) = some (v, r) := by
  obtain ⟨c, t, rfl, hc⟩ := digit_of_unsigned? h
  unfold atom?
  rw [words_digit hc]
  cases negative with
  | true => exact h
  | false =>
    dsimp only
    split
    · next heq =>
      obtain ⟨rfl, -⟩ := List.cons.inj heq
      exact absurd hc (by decide)
    · exact h

/-- The text of an integer reads back, if it has few enough digits. -/
theorem atom?_ofInt {n : Int} (hfew : (int n).hasFewDigits = true) {rest : Text}
    (hrest : IsClosed rest) : atom? (Text.ofInt n ++ rest) = some (.ok (int n), rest) := by
  simp only [hasFewDigits, decide_eq_true_eq] at hfew
  cases n with
  | ofNat n => exact atom?_eq_unsigned? (unsigned?_ofNat false hfew hrest)
  | negSucc n => exact atom?_eq_unsigned? (unsigned?_ofNat true (n := n + 1) hfew hrest)

theorem atom?_finiteText (negative : Bool) {significand : Nat} {exponent : Int}
    (h : IsCanonical significand exponent) {rest : Text} (hrest : IsClosed rest) :
    atom? (finiteText negative significand exponent ++ rest)
      = some (.ok (float (.finite negative significand exponent h)), rest) := by
  rw [finiteText, List.append_assoc]
  apply atom?_eq_unsigned?
  split
  · next hzero =>
    subst hzero
    have hexponent : exponent = -1074 := by
      obtain ⟨-, -, -, hfull⟩ := h
      omega
    subst hexponent
    exact unsigned?_fraction negative [.scalar '0'] [.scalar '0']
      (fun r _ => wholePart?_zero r) (by decide) (by simp) hrest
  · next hne =>
    have hread := Binary64.ofDecimal_shortest negative h hne
    have hpos : 0 < (Binary64.shortest significand exponent).digits := by
      apply Nat.pos_of_ne_zero
      intro hzero
      rw [Binary64.ofDecimal, if_pos hzero, Binary64.zero, Binary64.finite.injEq] at hread
      exact hne hread.2.1.symm
    rw [unsigned?_write negative hpos hrest, hread]

/-- The text of a floating-point number reads back as the same number. -/
theorem atom?_floatText (x : Binary64) {rest : Text} (hrest : IsClosed rest) :
    atom? (floatText x ++ rest) = some (.ok (float x), rest) := by
  cases x with
  | nan => simp [atom?, words, floatText, Text.ofString, List.isPrefixOf]
  | infinity negative =>
    cases negative <;> simp [atom?, words, floatText, Text.ofString, List.isPrefixOf]
  | finite negative significand exponent h => exact atom?_finiteText negative h hrest

theorem isClosed_nil : IsClosed [] := by
  intro c hc
  exact absurd hc (by simp)

/-- The text of a floating-point number determines it. -/
theorem floatText_injective {x y : Binary64} (h : floatText x = floatText y) : x = y := by
  have hx := atom?_floatText x isClosed_nil
  rw [h, atom?_floatText y isClosed_nil] at hx
  simpa using hx.symm

/-! ## Their code points -/

theorem isAtomic_ofNat (n : Nat) : ∀ c ∈ Text.ofNat n, isAtomic c = true := fun _ h =>
  isAtomic_of_isDigit (Text.isDigit_of_mem_ofNat h)

theorem isAtomic_zeros (n : Nat) :
    ∀ c ∈ List.replicate n (CodePoint.scalar '0'), isAtomic c = true := fun _ h =>
  isAtomic_of_isDigit (isDigit_zeros h)

theorem isAtomic_ofInt (n : Int) : ∀ c ∈ Text.ofInt n, isAtomic c = true := by
  cases n with
  | ofNat n => exact isAtomic_ofNat n
  | negSucc n => exact List.forall_mem_cons.mpr ⟨by decide, isAtomic_ofNat (n + 1)⟩

theorem isAtomic_powerText (lead : Int) : ∀ c ∈ powerText lead, isAtomic c = true := by
  unfold powerText
  rw [List.forall_mem_append]
  constructor
  · split <;> decide
  · split
    · exact List.forall_mem_append.mpr ⟨by decide, isAtomic_ofNat _⟩
    · exact isAtomic_ofNat _

theorem isAtomic_write (d : Decimal) : ∀ c ∈ numberFormat.write d, isAtomic c = true := by
  have digits := isAtomic_ofNat d.digits
  have taken : ∀ k, ∀ c ∈ (Text.ofNat d.digits).take k, isAtomic c = true := fun k c h =>
    digits c (List.mem_of_mem_take h)
  have dropped : ∀ k, ∀ c ∈ (Text.ofNat d.digits).drop k, isAtomic c = true := fun k c h =>
    digits c (List.mem_of_mem_drop h)
  simp only [NumberFormat.write, NumberFormat.positional, exponential_eq]
  split
  · split
    · simp only [List.forall_mem_append]
      exact ⟨⟨by decide, isAtomic_zeros _⟩, digits⟩
    · split
      · simp only [List.forall_mem_append]
        exact ⟨⟨digits, isAtomic_zeros _⟩, by decide⟩
      · simp only [List.forall_mem_append]
        exact ⟨⟨taken _, by decide⟩, dropped _⟩
  · simp only [List.forall_mem_append]
    refine ⟨⟨taken _, ?_⟩, isAtomic_powerText _⟩
    split
    · exact fun c h => absurd h (by simp)
    · exact List.forall_mem_append.mpr ⟨by decide, dropped _⟩

theorem isAtomic_floatText (x : Binary64) : ∀ c ∈ floatText x, isAtomic c = true := by
  cases x with
  | nan => decide
  | infinity negative => cases negative <;> decide
  | finite negative significand exponent h =>
    refine List.forall_mem_append.mpr ⟨?_, ?_⟩
    · cases negative <;> decide
    · split
      · decide
      · exact isAtomic_write _

theorem floatText_ne_nil (x : Binary64) : floatText x ≠ [] := by
  intro empty
  have read := atom?_floatText x isClosed_nil
  rw [empty] at read
  exact absurd read (by simp [atom?, words, Text.ofString, List.isPrefixOf, unsigned?, wholePart?])

theorem ofInt_ne_nil (n : Int) : Text.ofInt n ≠ [] := by
  cases n with
  | ofNat n => exact Text.ofNat_ne_nil n
  | negSucc n => exact List.cons_ne_nil _ _

end Json

/-- The text of an integer determines it. -/
theorem Text.ofInt_injective {m n : Int} (h : Text.ofInt m = Text.ofInt n) : m = n := by
  have hminus : ∀ k l : Nat, Text.ofNat k ≠ .scalar '-' :: Text.ofNat l := by
    intro k l heq
    have hmem : CodePoint.scalar '-' ∈ Text.ofNat k := by simp [heq]
    exact absurd (Text.isDigit_of_mem_ofNat hmem) (by decide)
  have hvalue : ∀ {k l : Nat}, Text.ofNat k = Text.ofNat l → k = l := by
    intro k l heq
    rw [← Json.digitsValue_ofNat k, heq, Json.digitsValue_ofNat]
  cases m with
  | ofNat m =>
    cases n with
    | ofNat n => rw [hvalue h]
    | negSucc n => exact absurd h (hminus m (n + 1))
  | negSucc m =>
    cases n with
    | ofNat n => exact absurd h.symm (hminus n (m + 1))
    | negSucc n =>
      have := hvalue (List.cons.inj h).2
      rw [Nat.succ.inj this]

end Grimoire
