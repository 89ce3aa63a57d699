import Grimoire.Proofs.Segments
import Grimoire.Proofs.Template
import Grimoire.Proofs.Text.Lines

/-!
# The shape of literals

A literal starts and ends with a quote. Inside there is no quote that is not escaped, no control and
no separator (`Script.isLiteral_literal`), so a literal ends at its own quote and takes up a part of
one line, whatever its text is. Two texts are alike if they have the same fixed code points around
literals (`Script.Alike`). Alike texts have alike lines (`Script.Alike.lines`), also behind a margin
(`Script.Alike.lines_indent`), and two templates have alike expressions if both have placeholders or
neither has (`Script.alike_expression`).
-/

namespace Grimoire

namespace Script

open Json

/-! ## Literals -/

/-- Whether a code point is neither a control nor a separator. -/
def IsPlain (c : CodePoint) : Prop := ¬c.val < 0x20 ∧ ¬IsSeparator c

instance (c : CodePoint) : Decidable (IsSeparator c) := inferInstanceAs (Decidable (_ ∨ _))

instance (c : CodePoint) : Decidable (IsPlain c) := inferInstanceAs (Decidable (_ ∧ _))

/-- Whether a text may stand between quotes: plain code points, of which a quote or a backslash goes
with a backslash in front of it. -/
inductive IsInside : Text → Prop
  | nil : IsInside []
  | single {c : CodePoint} {t : Text} :
      c ≠ .scalar '"' → c ≠ .scalar '\\' → IsPlain c → IsInside t → IsInside (c :: t)
  | escape {c : CodePoint} {t : Text} : IsPlain c → IsInside t → IsInside (.scalar '\\' :: c :: t)

/-- Whether a text starts with a quote and ends with the next one that is not escaped. -/
def IsLiteral (t : Text) : Prop :=
  ∃ inside, t = .scalar '"' :: (inside ++ [.scalar '"']) ∧ IsInside inside

theorem IsInside.append {t u : Text} (first : IsInside t) (rest : IsInside u) :
    IsInside (t ++ u) := by
  induction first with
  | nil => exact rest
  | single quote backslash plain _ ih => exact .single quote backslash plain ih
  | escape plain _ ih => exact .escape plain ih

theorem isInside_of_forall {t : Text}
    (single : ∀ c ∈ t, c ≠ .scalar '"' ∧ c ≠ .scalar '\\' ∧ IsPlain c) : IsInside t := by
  induction t with
  | nil => exact .nil
  | cons c t ih =>
    rw [List.forall_mem_cons] at single
    obtain ⟨⟨quote, backslash, plain⟩, rest⟩ := single
    exact .single quote backslash plain (ih rest)

theorem IsInside.isPlain {t : Text} (inside : IsInside t) : ∀ c ∈ t, IsPlain c := by
  induction inside with
  | nil => simp
  | single _ _ plain _ ih => exact List.forall_mem_cons.mpr ⟨plain, ih⟩
  | escape plain _ ih =>
    exact List.forall_mem_cons.mpr ⟨by decide, List.forall_mem_cons.mpr ⟨plain, ih⟩⟩

/-- Every code point is written in a way that may stand between quotes. -/
theorem isInside_escape (c : CodePoint) : IsInside ((separated .indented).escape c) := by
  change IsInside (escapeSeparators (escapeBasic c))
  by_cases separator : IsSeparator c
  · rcases separator with rfl | rfl
    · exact .escape (by decide) (isInside_of_forall (by decide : ∀ d ∈ ("2028" : Text), _))
    · exact .escape (by decide) (isInside_of_forall (by decide : ∀ d ∈ ("2029" : Text), _))
  -- What is left is written with one letter, in hexadecimal digits or as itself.
  rw [escapeSeparators_escapeBasic separator]
  rcases escapeBasic_cases c with ⟨d, e, -, escaped, -, simple⟩ | ⟨control, escaped⟩ |
    ⟨quote, backslash, control, escaped⟩
  · have plain : ¬e.val < 0x20 := control_escapeBasic c e (by simp [escaped])
    rw [escaped]
    refine .escape ⟨plain, ?_⟩ .nil
    rintro (rfl | rfl) <;> exact absurd simple (by simp [simpleEscape?])
  · have digits : ∀ n < 0x20, ∀ d ∈ Text.hex 4 n,
        d ≠ .scalar '"' ∧ d ≠ .scalar '\\' ∧ IsPlain d := by decide
    rw [escaped]
    exact .escape (by decide) (isInside_of_forall (digits c.val control))
  · rw [escaped]
    exact .single quote backslash ⟨control, separator⟩ .nil

theorem isInside_flatMap (t : Text) : IsInside (t.flatMap (separated .indented).escape) := by
  induction t with
  | nil => exact .nil
  | cons c t ih => exact (isInside_escape c).append ih

/-- Every text is written as a literal. -/
theorem isLiteral_literal (t : Text) : IsLiteral (literal t) :=
  ⟨_, literal_eq t, isInside_flatMap t⟩

/-- A literal does not end the line that it is on. -/
theorem IsLiteral.notMem_lineFeed {t : Text} (shape : IsLiteral t) : .scalar '\n' ∉ t := by
  obtain ⟨inside, rfl, isInside⟩ := shape
  intro member
  rcases List.mem_cons.mp member with quote | member
  · exact absurd quote (by decide)
  rcases List.mem_append.mp member with member | quote
  · exact (isInside.isPlain _ member).1 (by decide)
  · exact absurd quote (by decide)

/-! ## Alike texts -/

/-- Whether two texts are the same but for their literals: the same fixed code points, none of which
is a quote, around literals of any texts. -/
inductive Alike : Text → Text → Prop
  | nil : Alike [] []
  | fixed {c : CodePoint} {a b : Text} : c ≠ .scalar '"' → Alike a b → Alike (c :: a) (c :: b)
  | literal {t u a b : Text} : IsLiteral (literal t) → IsLiteral (literal u) → Alike a b →
      Alike (literal t ++ a) (literal u ++ b)

namespace Alike

theorem append {a b c d : Text} (first : Alike a b) (rest : Alike c d) :
    Alike (a ++ c) (b ++ d) := by
  induction first with
  | nil => exact rest
  | fixed other _ ih => exact .fixed other ih
  | literal shape shape' _ ih =>
    rw [List.append_assoc, List.append_assoc]
    exact .literal shape shape' ih

theorem refl {t : Text} (plain : .scalar '"' ∉ t) : Alike t t := by
  induction t with
  | nil => exact .nil
  | cons c t ih =>
    rw [List.mem_cons, not_or] at plain
    exact .fixed (Ne.symm plain.1) (ih plain.2)

theorem of_literal (t u : Text) : Alike (Script.literal t) (Script.literal u) := by
  have ends := Alike.literal (isLiteral_literal t) (isLiteral_literal u) .nil
  rwa [List.append_nil, List.append_nil] at ends

theorem isEmpty {a b : Text} (alike : Alike a b) : a.isEmpty = b.isEmpty := by
  cases alike with
  | nil => rfl
  | fixed => rfl
  | @literal t u a b => rw [literal_eq, literal_eq]; rfl

/-- Alike texts have alike lines, because no literal goes on to a second line. -/
theorem lines {a b : Text} (alike : Alike a b) : List.Forall₂ Alike a.lines b.lines := by
  induction alike with
  | nil => exact .cons .nil .nil
  | @fixed c a b other _ ih =>
    -- Only a fixed line feed starts a line, and it does so on both sides.
    by_cases same : c = .scalar '\n'
    · subst same
      rw [Text.lines, Text.lines, Text.splitOn_cons_self, Text.splitOn_cons_self]
      exact .cons .nil ih
    · obtain ⟨piece, pieces, cut, cut'⟩ := Text.splitOn_cons same a
      obtain ⟨piece₂, pieces₂, cut₂, cut₂'⟩ := Text.splitOn_cons same b
      rw [Text.lines, Text.lines, cut, cut₂, List.forall₂_cons] at ih
      rw [Text.lines, Text.lines, cut', cut₂']
      exact .cons (.fixed other ih.1) ih.2
  | @literal t u a b shape shape' _ ih =>
    obtain ⟨piece, pieces, cut, cut'⟩ := Text.splitOn_append_of_notMem shape.notMem_lineFeed a
    obtain ⟨piece₂, pieces₂, cut₂, cut₂'⟩ := Text.splitOn_append_of_notMem shape'.notMem_lineFeed b
    rw [Text.lines, Text.lines, cut, cut₂, List.forall₂_cons] at ih
    rw [Text.lines, Text.lines, cut', cut₂']
    exact .cons (.literal shape shape' ih.1) ih.2

/-- A margin goes in front of the same lines of alike texts. -/
theorem lines_indent {margin a b : Text} (flat : .scalar '\n' ∉ margin)
    (plain : .scalar '"' ∉ margin) (alike : Alike a b) :
    List.Forall₂ Alike (Text.indent margin a).lines (Text.indent margin b).lines := by
  rw [Text.lines_indent flat, Text.lines_indent flat, List.forall₂_map_left_iff,
    List.forall₂_map_right_iff]
  refine alike.lines.imp fun l l' same => ?_
  rw [same.isEmpty]
  split
  · exact same
  · exact (refl plain).append same

end Alike

/-- Two templates have alike expressions if both are filled in or neither is. -/
theorem alike_expression {t u : Text}
    (same : Template.hasPlaceholder t = Template.hasPlaceholder u) :
    Alike (expression t) (expression u) := by
  rw [expression, expression, Template.any_segments, Template.any_segments, same]
  split
  · exact ((Alike.refl (by decide)).append (.of_literal t u)).append (.refl (by decide))
  · exact .of_literal t u

end Script

end Grimoire
