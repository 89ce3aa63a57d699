import Grimoire.Text.CodePoint

/-!
# Blank space

Which code points are white space, and cutting them off both ends of a text.

Main statements: `Text.isBlank_of_isWhitespace` (the white space of ASCII is blank) and
`Text.trim_eq_self` (a text without blanks at its ends is left as it is).
-/

namespace Grimoire.Text

/-- Unicode white space: the bidirectional classes of spaces and of separators. -/
def isBlank (c : CodePoint) : Bool :=
  let n := c.val
  (0x09 ≤ n && n ≤ 0x0D) || (0x1C ≤ n && n ≤ 0x20) || n == 0x85 || n == 0xA0 || n == 0x1680
    || (0x2000 ≤ n && n ≤ 0x200A) || n == 0x2028 || n == 0x2029 || n == 0x202F || n == 0x205F
    || n == 0x3000

/-- Cuts off the blanks at the end. -/
def trimRight (t : Text) : Text := (t.reverse.dropWhile isBlank).reverse

/-- Cuts off the blanks at both ends. -/
def trim (t : Text) : Text := trimRight (t.dropWhile isBlank)

theorem isBlank_of_isWhitespace {c : Char} (h : c.isWhitespace = true) :
    isBlank (.scalar c) = true := by
  simp only [Char.isWhitespace, Bool.or_eq_true, decide_eq_true_eq] at h
  rcases h with ((h | h) | h) | h <;> subst h <;> decide

theorem trimRight_eq_self {t : Text} (h : ∀ c ∈ t.getLast?, isBlank c = false) :
    trimRight t = t := by
  rcases List.eq_nil_or_concat t with rfl | ⟨s, c, rfl⟩
  · rfl
  · have hc : isBlank c = false := h c (by simp)
    simp [trimRight, hc]

theorem trim_eq_self {t : Text} (hHead : ∀ c ∈ t.head?, isBlank c = false)
    (hLast : ∀ c ∈ t.getLast?, isBlank c = false) : trim t = t := by
  cases t with
  | nil => rfl
  | cons c t =>
    have hc : isBlank c = false := hHead c (by simp)
    have hdrop : (c :: t).dropWhile isBlank = c :: t := by simp [hc]
    rw [trim, hdrop, trimRight_eq_self hLast]

end Grimoire.Text
