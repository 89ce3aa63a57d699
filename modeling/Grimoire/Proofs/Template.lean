import Grimoire.Proofs.Json.Prefix
import Grimoire.Template

/-!
# Literals in generated programs

Writing the two separators by their numbers is a matter of the layout
(`Script.escapeSeparators_print`), and reading undoes it (`Script.isUndone_separated`). So the
literals, the expressions and the values of a generated program are a prefix code
(`Script.literal_prefix`, `Script.expression_prefix`, `Script.value_prefix`).
-/

namespace Grimoire.Script

open Json

/-- Whether a code point is one of the two separators. -/
def IsSeparator (c : CodePoint) : Prop := c = .scalar '\u2028' ∨ c = .scalar '\u2029'

/-- The layout with the separators written by their numbers. -/
def separated (l : Layout) : Layout := { l with escape := fun c => escapeSeparators (l.escape c) }

theorem escapeSeparators_append (t u : Text) :
    escapeSeparators (t ++ u) = escapeSeparators t ++ escapeSeparators u := List.flatMap_append

theorem escapeSeparators_cons {c : CodePoint} (plain : ¬IsSeparator c) (t : Text) :
    escapeSeparators (c :: t) = c :: escapeSeparators t := by
  rw [IsSeparator, not_or] at plain
  simp [escapeSeparators, plain.1, plain.2]

theorem escapeSeparators_eq_self {t : Text} (plain : ∀ c ∈ t, ¬IsSeparator c) :
    escapeSeparators t = t := by
  induction t with
  | nil => rfl
  | cons c t ih =>
    rw [List.forall_mem_cons] at plain
    rw [escapeSeparators_cons plain.1, ih plain.2]

theorem not_isSeparator_of_isAtomic {c : CodePoint} (atomic : isAtomic c = true) :
    ¬IsSeparator c := by
  rintro (rfl | rfl) <;> exact absurd atomic (by decide)

theorem escapeSeparators_quote (escape : CodePoint → Text) (t : Text) :
    escapeSeparators (quote escape t) = quote (fun c => escapeSeparators (escape c)) t := by
  have body : escapeSeparators (t.flatMap escape)
      = t.flatMap fun c => escapeSeparators (escape c) := by
    induction t with
    | nil => rfl
    | cons c t ih => rw [List.flatMap_cons, escapeSeparators_append, ih, List.flatMap_cons]
  rw [quote, escapeSeparators_cons (by rintro (h | h) <;> exact absurd h (by decide)),
    escapeSeparators_append, body]
  rfl

theorem not_isSeparator_mark {c : CodePoint} (mark : c ∈ ("[]\x7b\x7d\",: " : Text)) :
    ¬IsSeparator c := by
  rintro (rfl | rfl) <;> exact absurd mark (by decide)

theorem not_isSeparator_blank {c : CodePoint} (blank : isGap c = true) : ¬IsSeparator c := by
  rintro (rfl | rfl) <;> exact absurd blank (by decide)

theorem escapeSeparators_atom {v : Json} {t : Text} (atom : v.atomText? = some t) (l : Layout)
    (level : Nat) : escapeSeparators (print l level v) = print (separated l) level v := by
  rw [print_of_atomText? atom, print_of_atomText? atom]
  exact escapeSeparators_eq_self fun c member =>
    not_isSeparator_of_isAtomic (isAtomic_atomText atom c member)

section

variable {l : Layout} (readable : l.IsReadable)

include readable

theorem escapeSeparators_edge (level : Nat) (t : Text) :
    escapeSeparators (l.edge level ++ t) = l.edge level ++ escapeSeparators t := by
  rw [escapeSeparators_append, escapeSeparators_eq_self fun c member =>
    not_isSeparator_blank (readable.edge level c member)]

theorem escapeSeparators_gap (level : Nat) (t : Text) :
    escapeSeparators (l.gap level ++ t) = l.gap level ++ escapeSeparators t := by
  rw [escapeSeparators_append, escapeSeparators_eq_self fun c member =>
    not_isSeparator_blank (readable.gap level c member)]

mutual

/-- Separators occur inside quotes only. -/
theorem escapeSeparators_print (level : Nat) (v : Json) :
    escapeSeparators (print l level v) = print (separated l) level v := by
  cases v with
  | str t =>
    rw [print, print]
    exact escapeSeparators_quote l.escape t
  | arr vs =>
    cases vs with
    | nil =>
      rw [print_arr_nil, print_arr_nil]
      exact escapeSeparators_eq_self fun c member => not_isSeparator_mark (by revert c; decide)
    | cons v vs =>
      rw [print_arr_cons, print_arr_cons, escapeSeparators_cons (not_isSeparator_mark (by decide)),
        escapeSeparators_edge readable, escapeSeparators_append, escapeSeparators_print,
        escapeSeparators_printItems]
      rfl
  | obj ms =>
    cases ms with
    | nil =>
      rw [print_obj_nil, print_obj_nil]
      exact escapeSeparators_eq_self fun c member => not_isSeparator_mark (by revert c; decide)
    | cons m ms =>
      rw [print_obj_cons, print_obj_cons, escapeSeparators_cons (not_isSeparator_mark (by decide)),
        escapeSeparators_edge readable, escapeSeparators_append, escapeSeparators_quote,
        escapeSeparators_cons (not_isSeparator_mark (by decide)),
        escapeSeparators_cons (not_isSeparator_mark (by decide)), escapeSeparators_append,
        escapeSeparators_print, escapeSeparators_printMembers]
      rfl
  | _ => exact escapeSeparators_atom rfl l level

theorem escapeSeparators_printItems (level : Nat) (vs : List Json) :
    escapeSeparators (printItems l level vs) = printItems (separated l) level vs := by
  cases vs with
  | nil =>
    rw [printItems_nil, printItems_nil, escapeSeparators_edge readable,
      escapeSeparators_cons (not_isSeparator_mark (by decide))]
    rfl
  | cons v vs =>
    rw [printItems_cons, printItems_cons, escapeSeparators_cons (not_isSeparator_mark (by decide)),
      escapeSeparators_gap readable, escapeSeparators_append, escapeSeparators_print,
      escapeSeparators_printItems]
    rfl

theorem escapeSeparators_printMembers (level : Nat) (ms : Members) :
    escapeSeparators (printMembers l level ms) = printMembers (separated l) level ms := by
  cases ms with
  | nil =>
    rw [printMembers_nil, printMembers_nil, escapeSeparators_edge readable,
      escapeSeparators_cons (not_isSeparator_mark (by decide))]
    rfl
  | cons m ms =>
    rw [printMembers_cons, printMembers_cons,
      escapeSeparators_cons (not_isSeparator_mark (by decide)),
      escapeSeparators_gap readable, escapeSeparators_append, escapeSeparators_quote,
      escapeSeparators_cons (not_isSeparator_mark (by decide)),
      escapeSeparators_cons (not_isSeparator_mark (by decide)), escapeSeparators_append,
      escapeSeparators_print, escapeSeparators_printMembers]
    rfl

end

end

/-! ## Reading back -/

theorem escapeSeparators_escapeBasic {c : CodePoint} (plain : ¬IsSeparator c) :
    escapeSeparators (escapeBasic c) = escapeBasic c := by
  refine escapeSeparators_eq_self ?_
  rcases escapeBasic_cases c with ⟨d, e, -, escaped, -, simple⟩ | ⟨control, escaped⟩ |
    ⟨-, -, -, escaped⟩
  · rw [escaped, List.forall_mem_cons, List.forall_mem_singleton]
    refine ⟨by rintro (h | h) <;> exact absurd h (by decide), ?_⟩
    rintro (rfl | rfl) <;> exact absurd simple (by simp [simpleEscape?])
  · have digits : ∀ n < 0x20, ∀ d ∈ ("\\u" ++ Text.hex 4 n : Text),
        d ≠ .scalar '\u2028' ∧ d ≠ .scalar '\u2029' := by decide
    rw [escaped]
    intro d member
    rw [IsSeparator, not_or]
    exact digits c.val control d member
  · rw [escaped, List.forall_mem_singleton]
    exact plain

/-- A separator that is written by its number is read as itself, like any other code point. -/
theorem isUndone_separated : IsUndone (separated .indented).escape := by
  intro c start done s more
  by_cases separator : IsSeparator c
  · rcases separator with rfl | rfl
    · exact string_unit (u := 0x2028) start done s (by decide) (.inl (by decide)) more
    · exact string_unit (u := 0x2029) start done s (by decide) (.inl (by decide)) more
  · have same : (separated .indented).escape c = escapeBasic c :=
      escapeSeparators_escapeBasic separator
    rw [same]
    exact isUndone_escapeBasic c start done s more

theorem isReadable_separated : (separated .indented).IsReadable :=
  ⟨isUndone_separated, isReadable_indented.edge, isReadable_indented.gap⟩

/-! ## Literals, expressions and values -/

theorem literal_eq (t : Text) : literal t = quote (separated .indented).escape t := by
  rw [literal, line, print]
  exact escapeSeparators_quote escapeBasic t

theorem jsonBlock_eq {v : Json} (given : v ≠ .null) : jsonBlock v = pretty v := by
  cases v with
  | null => exact absurd rfl given
  | _ => rfl

theorem value_eq {v : Json} (given : v ≠ .null) : value v = print (separated .indented) 0 v := by
  rw [value, jsonBlock_eq given]
  exact escapeSeparators_print isReadable_indented 0 v

theorem value_obj (ms : Members) : value (.obj ms) = print (separated .indented) 0 (.obj ms) :=
  value_eq (by simp)

/-- A literal ends at its quote. -/
theorem literal_prefix {t u r s : Text} (h : literal t ++ r = literal u ++ s) : t = u ∧ r = s := by
  rw [literal_eq, literal_eq] at h
  exact quote_prefix isUndone_separated h

/-- A literal does not look like a call. -/
theorem literal_ne_call {t u r s : Text} : literal t ++ r ≠ "interpolate(" ++ literal u ++ s := by
  rw [literal_eq, quote]
  intro same
  exact absurd (List.cons.inj same).1 (by decide)

/-- The form of an expression tells whether there are placeholders. -/
theorem expression_prefix {t u r s : Text} (h : expression t ++ r = expression u ++ s) :
    t = u ∧ r = s := by
  unfold expression at h
  split at h <;> split at h
  · simp only [List.append_assoc, List.append_cancel_left_eq] at h
    obtain ⟨rfl, rest⟩ := literal_prefix h
    exact ⟨rfl, List.append_cancel_left rest⟩
  · rw [List.append_assoc] at h
    exact absurd h.symm literal_ne_call
  · rw [List.append_assoc _ _ s] at h
    exact absurd h literal_ne_call
  · exact literal_prefix h

/-- A schema ends at its brace. -/
theorem value_prefix {ms ns : Members} {r s : Text} (closed : IsClosed r) (closed' : IsClosed s)
    (h : value (.obj ms) ++ r = value (.obj ns) ++ s) : ms = ns ∧ r = s := by
  rw [value_obj, value_obj] at h
  obtain ⟨same, rest⟩ := print_prefix isReadable_separated 0 _ _ closed closed' h
  exact ⟨Json.obj.inj same, rest⟩

end Grimoire.Script
