/-!
# Code points and text

Documents may carry a surrogate that stands alone (an escape such as `\ud800` without its
partner), which no `Char` can hold. A `CodePoint` is a Unicode scalar value or such a surrogate,
and a `Text` is a list of them: every count, position and order of this library is in code points.

Main statements: `CodePoint.val_inj` (the number determines the code point), `Text.mend_eq_self_iff`
(mending changes what cannot be written out, and nothing else), `Text.le_total` and
`Text.le_antisymm` (the order by code point is linear).
-/

namespace Grimoire

/-- A Unicode code point: a scalar value, or a surrogate that stands alone. -/
inductive CodePoint where
  | scalar (c : Char)
  | surrogate (s : Fin 0x800)
  deriving DecidableEq, Inhabited

/-- A text is a list of code points. -/
abbrev Text := List CodePoint

namespace CodePoint

instance : Coe Char CodePoint := ⟨scalar⟩

/-- The number of a code point. -/
def val : CodePoint → Nat
  | scalar c => c.toNat
  | surrogate s => 0xD800 + s.val

/-- The code point with a given number, if there is one. -/
def ofNat? (n : Nat) : Option CodePoint :=
  if h : n.isValidChar then some (scalar (Char.ofNatAux n h))
  else if h : 0xD800 ≤ n ∧ n < 0xE000 then some (surrogate ⟨n - 0xD800, by omega⟩)
  else none

/-- The character of a code point that is one. -/
def toChar? : CodePoint → Option Char
  | scalar c => some c
  | surrogate _ => none

/-- Whether the code point is a Unicode scalar value. -/
def isScalar : CodePoint → Bool
  | scalar _ => true
  | surrogate _ => false

/-- Whether the code point is a character for which `p` holds. -/
def satisfies (p : Char → Bool) : CodePoint → Bool
  | scalar c => p c
  | surrogate _ => false

end CodePoint

namespace Text

/-- The text of a string. -/
def ofString (s : String) : Text := s.toList.map .scalar

instance : Coe String Text := ⟨ofString⟩

/-- The characters of a text that has no surrogate standing alone. -/
def scalars? (t : Text) : Option (List Char) := t.mapM CodePoint.toChar?

/-- The string of a text that has no surrogate standing alone. -/
def toString? (t : Text) : Option String := t.scalars?.map String.ofList

/-- Whether a text can be written out, that is, has no surrogate standing alone. -/
def isEncodable (t : Text) : Bool := t.all CodePoint.isScalar

/-- A text that can be written out in the place of one that perhaps cannot: a surrogate that stands alone
would take three bytes, and each of them becomes a replacement character. -/
def mend (t : Text) : Text :=
  t.flatMap fun c => if c.isScalar then [c] else List.replicate 3 (.scalar '\uFFFD')

/-- The decimal digits of a natural number. -/
def ofNat (n : Nat) : Text := (Nat.toDigits 10 n).map .scalar

/-- The decimal text of an integer, with a sign only where it is negative. -/
def ofInt : Int → Text
  | .ofNat n => ofNat n
  | .negSucc n => .scalar '-' :: ofNat (n + 1)

/-- Lexicographic order by code point. -/
def le : Text → Text → Bool
  | [], _ => true
  | _ :: _, [] => false
  | a :: s, b :: t => if a.val < b.val then true else if a = b then le s t else false

/-- Puts `sep` between the texts and joins them. -/
def join (sep : Text) : List Text → Text
  | [] => []
  | t :: ts => t ++ ts.flatMap (sep ++ ·)

/-- Cuts a text at every occurrence of a code point. -/
def splitOn (sep : CodePoint) (t : Text) : List Text :=
  let (piece, pieces) := t.foldr
    (fun c (piece, pieces) => if c = sep then ([], piece :: pieces) else (c :: piece, pieces))
    ([], [])
  piece :: pieces

/-- The lines of a text, which are what line feeds separate. -/
def lines (t : Text) : List Text := t.splitOn '\n'

/-- Puts a margin in front of every line that is not empty. -/
def indent (margin : Text) (t : Text) : Text :=
  join ['\n'] (t.lines.map fun line => if line.isEmpty then line else margin ++ line)

/-- Whether `part` occurs in the text. -/
def hasInfix (part : Text) : Text → Bool
  | [] => part.isEmpty
  | c :: t => part.isPrefixOf (c :: t) || hasInfix part t

/-- Drops a leading `head`, if the text starts with it. -/
def dropHead (head t : Text) : Text :=
  if head.isPrefixOf t then t.drop head.length else t

/-- Every line ends in a single line feed: a carriage return, alone or before a line feed, becomes
one. -/
def unixNewlines (t : Text) : Text := go [] t
where
  go (done : Text) : Text → Text
    | [] => done.reverse
    | .scalar '\r' :: .scalar '\n' :: t => go (.scalar '\n' :: done) t
    | .scalar '\r' :: t => go (.scalar '\n' :: done) t
    | c :: t => go (c :: done) t

end Text

theorem CodePoint.val_inj {a b : CodePoint} : a.val = b.val ↔ a = b := by
  refine ⟨fun h => ?_, fun h => h ▸ rfl⟩
  cases a with
  | scalar c =>
    cases b with
    | scalar d => exact congrArg scalar (Char.toNat_inj.mp h)
    | surrogate t =>
      have hc := c.valid
      have ht := t.isLt
      simp only [val, Char.toNat] at h
      simp only [UInt32.isValidChar, Nat.isValidChar] at hc
      omega
  | surrogate s =>
    cases b with
    | scalar d =>
      have hd := d.valid
      have hs := s.isLt
      simp only [val, Char.toNat] at h
      simp only [UInt32.isValidChar, Nat.isValidChar] at hd
      omega
    | surrogate t =>
      have : s = t := Fin.ext (by simpa [val] using h)
      exact congrArg surrogate this

namespace Text

theorem isEncodable_mend (t : Text) : (mend t).isEncodable = true := by
  simp only [isEncodable, mend, List.all_flatMap, List.all_eq_true]
  intro c _ d hd
  split at hd
  · rename_i hc
    rwa [List.mem_singleton.mp hd]
  · rw [List.eq_of_mem_replicate hd]
    rfl

/-- A text that can be written out is left as it is. -/
theorem mend_of_isEncodable {t : Text} (h : t.isEncodable = true) : mend t = t := by
  induction t with
  | nil => rfl
  | cons c t ih =>
    simp only [isEncodable, List.all_cons, Bool.and_eq_true] at h
    simp only [mend, List.flatMap_cons, h.1, if_true, List.singleton_append, List.cons.injEq,
      true_and]
    exact ih h.2

theorem mend_eq_self_iff {t : Text} : mend t = t ↔ t.isEncodable = true :=
  ⟨fun h => h ▸ isEncodable_mend t, mend_of_isEncodable⟩

theorem mend_mend (t : Text) : mend (mend t) = mend t := mend_of_isEncodable (isEncodable_mend t)

theorem le_refl (t : Text) : le t t = true := by
  induction t with
  | nil => rfl
  | cons a t ih => simp [le, ih]

theorem le_total (s t : Text) : (le s t || le t s) = true := by
  induction s generalizing t with
  | nil => rfl
  | cons a s ih =>
    cases t with
    | nil => rfl
    | cons b t =>
      rcases Nat.lt_trichotomy a.val b.val with h | h | h
      · simp [le, h]
      · have hab := CodePoint.val_inj.mp h
        subst hab
        simpa [le] using ih t
      · simp [le, h]

theorem le_antisymm {s t : Text} (hst : le s t = true) (hts : le t s = true) : s = t := by
  induction s generalizing t with
  | nil =>
    cases t with
    | nil => rfl
    | cons b t => simp [le] at hts
  | cons a s ih =>
    cases t with
    | nil => simp [le] at hst
    | cons b t =>
      rcases Nat.lt_trichotomy a.val b.val with h | h | h
      · have hne : ¬ b.val < a.val := by omega
        have hab : b ≠ a := fun e => by subst e; omega
        simp [le, hne, hab] at hts
      · have hab := CodePoint.val_inj.mp h
        subst hab
        simp only [le, Nat.lt_irrefl, if_false, if_true] at hst hts
        rw [ih hst hts]
      · have hne : ¬ a.val < b.val := by omega
        have hab : a ≠ b := fun e => by subst e; omega
        simp [le, hne, hab] at hst

theorem le_trans {s t u : Text} (hst : le s t = true) (htu : le t u = true) :
    le s u = true := by
  induction s generalizing t u with
  | nil => rfl
  | cons a s ih =>
    cases t with
    | nil => simp [le] at hst
    | cons b t =>
      cases u with
      | nil => simp [le] at htu
      | cons c u =>
        simp only [le] at hst htu ⊢
        split at hst
        · rename_i hab
          split at htu
          · rename_i hbc
            simp [show a.val < c.val by omega]
          · split at htu
            · rename_i hbc
              subst hbc
              simp [hab]
            · simp at htu
        · split at hst
          · rename_i hab
            subst hab
            split at htu
            · rename_i hbc
              simp [hbc]
            · split at htu
              · rename_i hbc
                subst hbc
                simp [ih hst htu]
              · simp at htu
          · simp at hst

end Text

end Grimoire
