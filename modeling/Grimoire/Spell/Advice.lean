import Grimoire.Spell.Basic
import Grimoire.Url.Absolute

/-!
# Advice on single fields

Front ends that ask for one field after the other tell at once what is wrong with an answer. An
address may carry placeholders in any place, so each is replaced by a word before it is judged.

Main statement: `Spell.adviseName_eq_none_iff` (there is no advice on a name exactly when its length
and its characters are right).
-/

namespace Grimoire

/-- What to tell about a field; the lengths are those of the answer. -/
inductive Advice where
  | nameRequired
  | nameTooShort (length : Nat)
  | nameTooLong (length : Nat)
  | nameCharacters
  | descriptionRequired
  | descriptionTooShort (length : Nat)
  | descriptionTooLong (length : Nat)
  | urlRequired
  | urlFormat
  deriving DecidableEq

/-- The wording of an advice. -/
def Advice.message : Advice → Text
  | nameRequired => "Name is required"
  | nameTooShort n =>
    "Name must be at least " ++ Text.ofNat Spell.minNameLength ++ " characters (currently "
      ++ Text.ofNat n ++ "). Example: api-client"
  | nameTooLong n =>
    "Name must be at most " ++ Text.ofNat Spell.maxNameLength ++ " characters (currently "
      ++ Text.ofNat n ++ ")"
  | nameCharacters =>
    "Name must contain only letters, numbers, and hyphens. Example: github-fetcher"
  | descriptionRequired => "Description is required"
  | descriptionTooShort n =>
    "Description must be at least " ++ Text.ofNat Spell.minDescriptionLength
      ++ " characters (currently " ++ Text.ofNat n
      ++ "). Add more details about what the tool does."
  | descriptionTooLong n =>
    "Description must be at most " ++ Text.ofNat Spell.maxDescriptionLength
      ++ " characters (currently " ++ Text.ofNat n ++ "). Please shorten it."
  | urlRequired => "URL is required"
  | urlFormat =>
    "Invalid URL format. Example: https://api.example.com/data or "
      ++ "https://api.example.com/\x7b\x7bresource\x7d\x7d"

namespace Spell

/-- Advice on a name. -/
def adviseName (t : Text) : Option Advice :=
  if t.isEmpty then some .nameRequired
  else if t.length < minNameLength then some (.nameTooShort t.length)
  else if maxNameLength < t.length then some (.nameTooLong t.length)
  else if t.all isNameCodePoint then none
  else some .nameCharacters

/-- Advice on a description. -/
def adviseDescription (t : Text) : Option Advice :=
  if t.isEmpty then some .descriptionRequired
  else if t.length < minDescriptionLength then some (.descriptionTooShort t.length)
  else if maxDescriptionLength < t.length then some (.descriptionTooLong t.length)
  else none

/-- What follows a placeholder of any wording at the start of a text. -/
def afterPlaceholder? : Text → Option Text
  | .scalar '\x7b' :: .scalar '\x7b' :: s =>
    match s.takeWhile (· ≠ .scalar '\x7d'), s.dropWhile (· ≠ .scalar '\x7d') with
    | _ :: _, .scalar '\x7d' :: .scalar '\x7d' :: rest => some rest
    | _, _ => none
  | _ => none

theorem afterPlaceholder?_length_lt {s rest : Text} (h : afterPlaceholder? s = some rest) :
    rest.length < s.length := by
  unfold afterPlaceholder? at h
  split at h
  · rename_i s
    split at h
    · rename_i heq
      have hle := (List.dropWhile_suffix (· ≠ CodePoint.scalar '\x7d') (l := s)).length_le
      rw [heq] at hle
      simp only [Option.some.injEq] at h
      rw [← h]
      simp only [List.length_cons] at hle ⊢
      omega
    · exact absurd h (by simp)
  · exact absurd h (by simp)

/-- A text with a word in the place of each placeholder. -/
def fillPlaceholders (word : Text) (t : Text) : Text :=
  match t with
  | [] => []
  | c :: s =>
    match _h : afterPlaceholder? (c :: s) with
    | some rest => word ++ fillPlaceholders word rest
    | none => c :: fillPlaceholders word s
termination_by t.length
decreasing_by
  · exact afterPlaceholder?_length_lt _h
  · exact Nat.lt_succ_self _

/-- Advice on an address that may carry placeholders. -/
def adviseUrl (t : Text) : Option Advice :=
  if t.isEmpty then some .urlRequired
  else if Url.isAbsolute (fillPlaceholders "test" t) then none
  else some .urlFormat

theorem adviseName_eq_none_iff (t : Text) :
    adviseName t = none ↔
      minNameLength ≤ t.length ∧ t.length ≤ maxNameLength ∧ t.all isNameCodePoint = true := by
  cases t with
  | nil => simp [adviseName, minNameLength]
  | cons c t =>
    generalize hs : c :: t = s
    have hne : s.isEmpty = false := by rw [← hs]; rfl
    simp only [adviseName, hne, Bool.false_eq_true, if_false]
    by_cases hshort : s.length < minNameLength
    · simp only [hshort, if_true, reduceCtorEq, false_iff]
      omega
    · by_cases hlong : maxNameLength < s.length
      · simp only [hshort, hlong, if_true, if_false, reduceCtorEq, false_iff]
        omega
      · simp only [hshort, hlong, if_false]
        by_cases hall : s.all isNameCodePoint = true
        · simp only [hall, if_true, true_iff, and_true]
          omega
        · simp [hall]

end Spell

end Grimoire
