import Grimoire.Proofs.Json.Outcome
import Grimoire.Proofs.Json.Quoting
import Grimoire.Proofs.Literal

/-!
# Texts and values in generated programs

The separators of printed text stand between quotes, behind whole escapes (`Script.separators_inside`).
So writing them by their numbers leaves the outline of the text as it is
(`Script.outline_escapeSeparators`), and what comes of it is read as the text or the value that was
printed (`Script.literal_exact`, `Script.value_exact`).
-/

namespace Grimoire.Script

open Json

/-! ## Separators written by their numbers -/

theorem not_isSeparator_of_mem (t : Text) : ∀ c ∈ escapeSeparators t, ¬IsSeparator c := by
  refine List.forall_mem_flatMap.mpr fun d _ => ?_
  split
  · decide
  split
  · decide
  · next first second => simpa [IsSeparator] using ⟨first, second⟩

/-- A separator between quotes and its number are in no outline, and reading goes on behind them
alike. -/
theorem outline_escapeSeparators {s : Spot} {t : Text}
    (placed : s.Each (fun s c => IsSeparator c → s = .inside) t) :
    Spot.outline s (escapeSeparators t) = Spot.outline s t := by
  induction t generalizing s with
  | nil => rfl
  | cons c t ih =>
    by_cases separator : IsSeparator c
    · -- The number leads back to the spot between quotes, as the separator itself does.
      obtain rfl := placed.1 separator
      rcases separator with rfl | rfl <;> exact ih placed.2
    · rw [escapeSeparators_cons separator, Spot.outline, Spot.outline, ih placed.2]

theorem isWhole_separated (c : CodePoint) : IsWhole ((separated .indented).escape c) := by
  change IsWhole (escapeSeparators (escapeBasic c))
  by_cases separator : IsSeparator c
  · rcases separator with rfl | rfl <;> decide
  · rw [escapeSeparators_escapeBasic separator]
    exact isWhole_escapeBasic c

theorem isForeign_of_isSeparator {c : CodePoint} (separator : IsSeparator c) :
    isForeign c = true := by
  rcases separator with rfl | rfl <;> decide

/-- The separators of printed text stand between quotes, behind whole escapes. -/
theorem separators_inside {t : Text} (settled : IsSettled t) :
    Spot.outside.Each (fun s c => IsSeparator c → s = .inside) t :=
  settled.each.imp fun _ _ placed separator => placed.foreign (isForeign_of_isSeparator separator)

/-! ## Literals and values -/

/-- A literal starts and ends with a quote. Between them no escape is cut off, every quote comes behind
a backslash, and there is no control and no separator. It is read as its text, whatever stands behind
it, and also as a document of its own. No separator of the quoted text was part of an escape before it
was written by its number. -/
theorem literal_exact (t : Text) :
    (∃ inside, literal t = .scalar '"' :: (inside ++ [.scalar '"']) ∧
      Spot.inside.after inside = .inside ∧
      (∀ before rest, inside = before ++ .scalar '"' :: rest → Spot.inside.after before = .escape) ∧
      ∀ c ∈ inside, IsPlain c) ∧
    (∀ start rest, string start [] ((literal t).tail ++ rest) = .ok (t, rest)) ∧
    (∀ room, read room (literal t) = .ok (.str t)) ∧
    ∀ before c rest, line (.str t) = before ++ c :: rest → IsSeparator c →
      Spot.outside.after before = .inside := by
  have body : IsWhole (t.flatMap (separated .indented).escape) := .flatMap isWhole_separated t
  refine ⟨⟨_, literal_eq t, body.after_eq, fun before rest cut => (body.each.at cut).quote rfl,
    (isInside_flatMap t).isPlain⟩, fun start rest => ?_, ?_, fun before c rest cut => ?_⟩
  · rw [literal_eq, quote, List.tail_cons, List.append_assoc]
    exact string_quote isUndone_separated start [] t rest
  · have reads := readsAs_print isReadable_separated (v := .str t) rfl
    rw [print, ← literal_eq] at reads
    exact fun room => reads.read_eq room ⟨Nat.zero_le _, rfl⟩
  · exact (separators_inside (isSettled_quote isWhole_escapeBasic t)).at cut

/-- A value other than null is embedded without separators and read as the value, unless it is too
much for the room of the reader. Writing the separators by their numbers changes what is between quotes
only: there they stand, behind whole escapes, and what is outside of quotes stays as it is. -/
theorem value_exact {v : Json} (given : v ≠ .null) (proper : v.isProper = true) :
    (∀ c ∈ value v, ¬IsSeparator c) ∧ ReadsAs (value v) v ∧
    (∀ before c rest, pretty v = before ++ c :: rest → IsSeparator c →
      Spot.outside.after before = .inside) ∧
    Spot.outside.outline (value v) = Spot.outside.outline (pretty v) := by
  have inside := separators_inside (isSettled_print isReadable_indented isWhole_escapeBasic 0 v)
  refine ⟨not_isSeparator_of_mem _, ?_, fun before c rest cut => inside.at cut, ?_⟩
  · rw [value_eq given]
    exact readsAs_print isReadable_separated proper
  · rw [value, jsonBlock_eq given]
    exact outline_escapeSeparators inside

/-- A value with a separator behind a backslash in a key, and with numbers that are not finite. -/
def tangled : Json :=
  .obj [("\\\u2028\"", .arr [.float .nan, .int 1, .obj [], .str "\\\u2029"]),
    ("", .float (.infinity true))]

theorem value_exact_tangled :
    tangled ≠ .null ∧ tangled.isProper = true ∧ (∀ c ∈ value tangled, ¬IsSeparator c) ∧
    ReadsAs (value tangled) tangled ∧
    (∀ before c rest, pretty tangled = before ++ c :: rest → IsSeparator c →
      Spot.outside.after before = .inside) ∧
    Spot.outside.outline (value tangled) = Spot.outside.outline (pretty tangled) :=
  ⟨by simp [tangled], by decide, value_exact (by simp [tangled]) (by decide)⟩

end Grimoire.Script
