import Grimoire.Proofs.Json.ReadBack
import Grimoire.Proofs.Text.Lines

/-!
# Where the code points of printed text stand

Read from the front, a text is outside of quotes, between them, behind the backslash of an escape or
in the number of one (`Json.Spot`), and the reader ends a quoted text where a quote leads out again
(`Json.keeps_string`). Printed text ends outside of quotes, its line feeds are outside of quotes, and
what is no part of the notation is between them, behind whole escapes (`Json.isSettled_print`). So a
line of it starts with the notation (`Json.head_of_line`).
-/

namespace Grimoire.Json

/-! ## Spots -/

/-- Where a text has been read up to: outside of quotes, between them, behind the backslash of an
escape, or in the number of one with so many digits to come. -/
inductive Spot where
  | outside
  | inside
  | escape
  | number (digits : Nat)
  deriving DecidableEq

namespace Spot

/-- The spot behind a code point. -/
def next : Spot → CodePoint → Spot
  | outside, c => if c = .scalar '"' then inside else outside
  | inside, c =>
    if c = .scalar '"' then outside
    else if c = .scalar '\\' then escape
    else inside
  | escape, c => if c = .scalar 'u' then number 4 else inside
  | number (digits + 2), _ => number (digits + 1)
  | number _, _ => inside

theorem next_inside {c : CodePoint} (quote : c ≠ .scalar '"') (backslash : c ≠ .scalar '\\') :
    inside.next c = inside := by
  rw [next, if_neg quote, if_neg backslash]

/-- The spot behind a text. -/
def after (s : Spot) (t : Text) : Spot := t.foldl next s

@[simp] theorem after_nil (s : Spot) : s.after [] = s := rfl

@[simp] theorem after_cons (s : Spot) (c : CodePoint) (t : Text) :
    s.after (c :: t) = (s.next c).after t := rfl

@[simp] theorem after_append (s : Spot) (t u : Text) :
    s.after (t ++ u) = (s.after t).after u := List.foldl_append

/-- What is outside of quotes in a text, with the quotes. -/
def outline : Spot → Text → Text
  | _, [] => []
  | s, c :: t =>
    if s = outside ∨ s.next c = outside then c :: outline (s.next c) t else outline (s.next c) t

/-- Whether a property holds of each code point of a text at the spot in front of it. -/
def Each (p : Spot → CodePoint → Prop) : Spot → Text → Prop
  | _, [] => True
  | s, c :: t => p s c ∧ Each p (s.next c) t

instance instDecidableEach (p : Spot → CodePoint → Prop) [∀ s c, Decidable (p s c)] :
    ∀ s t, Decidable (Each p s t)
  | _, [] => .isTrue trivial
  | s, c :: t =>
    have : Decidable (Each p (s.next c) t) := instDecidableEach p (s.next c) t
    inferInstanceAs (Decidable (p s c ∧ Each p (s.next c) t))

section

variable {p q : Spot → CodePoint → Prop} {s : Spot} {c : CodePoint} {t u : Text}

theorem each_append : Each p s (t ++ u) ↔ Each p s t ∧ Each p (s.after t) u := by
  induction t generalizing s with
  | nil => simp [Each]
  | cons c t ih => simp [Each, ih, and_assoc]

theorem Each.imp (weaker : ∀ s c, p s c → q s c) (each : Each p s t) : Each q s t := by
  induction t generalizing s with
  | nil => trivial
  | cons c t ih => exact ⟨weaker s c each.1, ih each.2⟩

/-- The property holds of every code point of the text at the spot behind what precedes it. -/
theorem Each.at (each : Each p s t) {before rest : Text} (cut : t = before ++ c :: rest) :
    p (s.after before) c := by
  subst cut
  exact (each_append.mp each).2.1

/-- Whether a text leads back to the spot in front of it, with a property that holds of each code point
at its spot. -/
structure Keeps (s : Spot) (p : Spot → CodePoint → Prop) (t : Text) : Prop where
  after_eq : s.after t = s
  each : s.Each p t

instance (s : Spot) (p : Spot → CodePoint → Prop) [∀ s c, Decidable (p s c)] (t : Text) :
    Decidable (s.Keeps p t) :=
  decidable_of_iff (_ ∧ _) ⟨fun h => ⟨h.1, h.2⟩, fun h => ⟨h.1, h.2⟩⟩

theorem Keeps.append (first : s.Keeps p t) (rest : s.Keeps p u) : s.Keeps p (t ++ u) := by
  refine ⟨?_, each_append.mpr ⟨first.each, ?_⟩⟩
  · rw [after_append, first.after_eq, rest.after_eq]
  · rw [first.after_eq]
    exact rest.each

theorem Keeps.flatMap {escape : CodePoint → Text} (keeps : ∀ c, s.Keeps p (escape c)) (t : Text) :
    s.Keeps p (t.flatMap escape) := by
  induction t with
  | nil => exact ⟨rfl, trivial⟩
  | cons c t ih => exact (keeps c).append ih

theorem Keeps.of_forall (stays : ∀ c ∈ t, s.next c = s ∧ p s c) : s.Keeps p t := by
  induction t with
  | nil => exact ⟨rfl, trivial⟩
  | cons c t ih =>
    rw [List.forall_mem_cons] at stays
    obtain ⟨⟨same, here⟩, behind⟩ := stays
    have one : s.Keeps p [c] := ⟨same, here, trivial⟩
    exact one.append (ih behind)

end

end Spot

/-! ## Quoted texts that are read -/

/-- Whether a code point at a spot is escaped if it is a quote. -/
def IsEscaped (s : Spot) (c : CodePoint) : Prop := c = .scalar '"' → s = .escape

theorem quote_ne_of_hexDigit? {c : CodePoint} {n : Nat} (digit : hexDigit? c = some n) :
    c ≠ .scalar '"' := by
  rintro rfl
  have none : hexDigit? (.scalar '"') = none := by decide
  exact absurd (digit.symm.trans none) (by simp)

theorem keeps_unit {a b c d : CodePoint} {u : Nat} (unit : unit? a b c d = some u) :
    Spot.inside.Keeps IsEscaped [.scalar '\\', .scalar 'u', a, b, c, d] := by
  simp only [unit?, Option.bind_eq_bind, Option.bind_eq_some_iff] at unit
  obtain ⟨_, first, _, second, _, third, _, fourth, -⟩ := unit
  have digit : ∀ {c : CodePoint} {n : Nat} {s : Spot}, hexDigit? c = some n → IsEscaped s c :=
    fun value same => absurd same (quote_ne_of_hexDigit? value)
  exact ⟨rfl, by simp [IsEscaped], by simp [IsEscaped], digit first, digit second, digit third,
    digit fourth, trivial⟩

theorem keeps_lowUnit? {s rest : Text} {low : Nat} (unit : lowUnit? s = some (low, rest)) :
    ∃ front, s = front ++ rest ∧ Spot.inside.Keeps IsEscaped front := by
  unfold lowUnit? at unit
  split at unit
  · split at unit
    · next value =>
      split at unit
      · obtain ⟨-, rfl⟩ := Prod.mk.inj (Option.some.inj unit)
        exact ⟨_, rfl, keeps_unit value⟩
      · exact absurd unit (by simp)
    · exact absurd unit (by simp)
  · exact absurd unit (by simp)

/-- The reader ends a quoted text at the first quote that is between quotes and in no escape. -/
theorem keeps_string {start done s t rest : Text} (read : string start done s = .ok (t, rest)) :
    ∃ body, s = body ++ .scalar '"' :: rest ∧ Spot.inside.Keeps IsEscaped body := by
  fun_induction string start done s with
  | case2 done r =>
    obtain ⟨-, rfl⟩ := Prod.mk.inj (Except.ok.inj read)
    exact ⟨[], rfl, rfl, trivial⟩
  | case5 done a b c d e r u value high low r' second ih =>
    obtain ⟨front, cut', keeps'⟩ := keeps_lowUnit? second
    obtain ⟨body, cut, keeps⟩ := ih read
    refine ⟨_, ?_, (keeps_unit value).append (keeps'.append keeps)⟩
    rw [cut', cut]
    simp
  | case6 done a b c d e r u value high alone ih =>
    obtain ⟨body, cut, keeps⟩ := ih read
    exact ⟨_, by rw [cut]; rfl, (keeps_unit value).append keeps⟩
  | case7 done a b c d e r u value single ih =>
    obtain ⟨body, cut, keeps⟩ := ih read
    exact ⟨_, by rw [cut]; rfl, (keeps_unit value).append keeps⟩
  | case9 done c r _ letter e _ ih =>
    obtain ⟨body, cut, keeps⟩ := ih read
    have escape : Spot.inside.Keeps IsEscaped [.scalar '\\', c] :=
      ⟨if_neg letter, by simp [IsEscaped], fun _ => rfl, trivial⟩
    exact ⟨_, by rw [cut]; rfl, escape.append keeps⟩
  | case12 done c r quote backslash _ ih =>
    obtain ⟨body, cut, keeps⟩ := ih read
    have plain : Spot.inside.Keeps IsEscaped [c] :=
      ⟨Spot.next_inside quote backslash, fun same => absurd same quote, trivial⟩
    exact ⟨_, by rw [cut]; rfl, plain.append keeps⟩
  | _ => exact absurd read (by simp)

/-! ## Whole escapes -/

/-- Whether a code point is no part of the notation: neither bare, nor a quote, nor part of an escape. -/
def isForeign (c : CodePoint) : Bool := !(isBare c || c ∈ ("\"\\/" : Text))

/-- Whether a code point may be at a spot of a printed text: what is foreign between quotes, a line
feed outside of them. -/
structure IsPlaced (s : Spot) (c : CodePoint) : Prop where
  foreign : isForeign c = true → s = .inside
  feed : c = .scalar '\n' → s = .outside

/-- Whether a code point may be at a spot between quotes: a quote behind a backslash, nothing foreign in
an escape, and no line feed. -/
structure IsQuoted (s : Spot) (c : CodePoint) : Prop where
  quote : IsEscaped s c
  foreign : isForeign c = true → s = .inside
  flat : c ≠ .scalar '\n'

instance (s : Spot) (c : CodePoint) : Decidable (IsEscaped s c) := inferInstanceAs (Decidable (_ → _))

instance (s : Spot) (c : CodePoint) : Decidable (IsQuoted s c) :=
  decidable_of_iff (_ ∧ _ ∧ _) ⟨fun h => ⟨h.1, h.2.1, h.2.2⟩, fun h => ⟨h.1, h.2, h.3⟩⟩

theorem IsQuoted.isPlaced {s : Spot} {c : CodePoint} (quoted : IsQuoted s c) : IsPlaced s c :=
  ⟨quoted.foreign, fun same => absurd same quoted.flat⟩

theorem isPlaced_of_not_isForeign {s : Spot} {c : CodePoint} (own : isForeign c = false)
    (flat : c ≠ .scalar '\n') : IsPlaced s c :=
  ⟨fun foreign => absurd (own.symm.trans foreign) Bool.false_ne_true, fun same => absurd same flat⟩

/-- Whether a text may stand between quotes: its escapes are whole, and all of it is in its place. -/
abbrev IsWhole (t : Text) : Prop := Spot.inside.Keeps IsQuoted t

theorem not_isForeign_of_simpleEscape? {e : CodePoint} {d : Char} (simple : simpleEscape? e = some d) :
    isForeign e = false := by
  unfold simpleEscape? at simple
  split at simple
  case h_9 => exact absurd simple (by simp)
  all_goals decide

/-- What is escaped by a letter is whole. -/
theorem isWhole_simple {e : CodePoint} {d : Char} (letter : e ≠ .scalar 'u')
    (simple : simpleEscape? e = some d) : IsWhole [.scalar '\\', e] := by
  have own := not_isForeign_of_simpleEscape? simple
  have flat : e ≠ .scalar '\n' := by
    rintro rfl
    exact absurd simple (by simp [simpleEscape?])
  exact ⟨if_neg letter, by decide,
    ⟨fun _ => rfl, fun foreign => absurd foreign (by simp [own]), flat⟩, trivial⟩

theorem isWhole_escapeBasic (c : CodePoint) : IsWhole (escapeBasic c) := by
  rcases escapeBasic_cases c with ⟨d, e, -, escaped, letter, simple⟩ | ⟨control, escaped⟩ |
    ⟨quote, backslash, control, escaped⟩
  · rw [escaped]
    exact isWhole_simple letter simple
  · have numbers : ∀ n < 0x20, IsWhole ("\\u" ++ Text.hex 4 n) := by decide
    rw [escaped]
    exact numbers c.val control
  · rw [escaped]
    refine ⟨Spot.next_inside quote backslash, ⟨fun same => absurd same quote, fun _ => rfl, ?_⟩, trivial⟩
    rintro rfl
    exact control (by decide)

/-! ## Printed text -/

/-- Whether a text ends outside of quotes, has its line feeds there, and what is foreign between them. -/
abbrev IsSettled (t : Text) : Prop := Spot.outside.Keeps IsPlaced t

theorem isSettled_of_bare {t : Text} (bare : ∀ c ∈ t, isBare c = true) : IsSettled t := by
  refine Spot.Keeps.of_forall fun c member => ⟨if_neg ?_, fun foreign => ?_, fun _ => rfl⟩
  · rintro rfl
    exact absurd (bare _ member) (by decide)
  · exact absurd foreign (by simp [isForeign, bare c member])

/-- A text between quotes ends at the second one. -/
theorem isSettled_quote {escape : CodePoint → Text} (whole : ∀ c, IsWhole (escape c)) (t : Text) :
    IsSettled (quote escape t) := by
  have body : IsWhole (t.flatMap escape) := .flatMap whole t
  have mark : ∀ s, IsPlaced s (.scalar '"') := fun s =>
    isPlaced_of_not_isForeign (by decide) (by decide)
  refine ⟨?_, mark _, Spot.each_append.mpr
    ⟨body.each.imp fun s c quoted => quoted.isPlaced, mark _, trivial⟩⟩
  change Spot.inside.after (t.flatMap escape ++ [.scalar '"']) = .outside
  rw [Spot.after_append, body.after_eq]
  rfl

theorem isSettled_print {l : Layout} (readable : l.IsReadable) (whole : ∀ c, IsWhole (l.escape c))
    (level : Nat) (v : Json) : IsSettled (print l level v) :=
  (readable.composes .append (fun _ => isSettled_of_bare) (isSettled_quote whole)).print level v

/-! ## Lines -/

/-- All lines but the first one start outside of quotes. -/
theorem each_lines {s : Spot} {t : Text} (placed : s.Each IsPlaced t) :
    ∃ first others, t.lines = first :: others ∧ s.Each IsPlaced first ∧
      ∀ l ∈ others, Spot.outside.Each IsPlaced l := by
  induction t generalizing s with
  | nil => exact ⟨[], [], rfl, trivial, by simp⟩
  | cons c t ih =>
    obtain ⟨first, others, cut, here, behind⟩ := ih placed.2
    by_cases same : c = .scalar '\n'
    · -- A line feed is outside of quotes, so the line behind it starts there.
      subst same
      obtain rfl := placed.1.feed rfl
      refine ⟨[], first :: others, ?_, trivial, List.forall_mem_cons.mpr ⟨here, behind⟩⟩
      rw [Text.lines, Text.splitOn_cons_self, ← cut, Text.lines]
    · obtain ⟨first', others', cut', longer⟩ := Text.splitOn_cons same t
      obtain ⟨rfl, rfl⟩ := List.cons.inj (cut'.symm.trans cut)
      exact ⟨c :: first', others', longer, ⟨placed.1, here⟩, behind⟩

/-- What a text starts with behind its spaces is not foreign if it starts outside of quotes. -/
theorem head_dropWhile {t : Text} (placed : Spot.outside.Each IsPlaced t) :
    ∀ c ∈ (t.dropWhile (· = .scalar ' ')).head?, isForeign c = false := by
  induction t with
  | nil => simp
  | cons c t ih =>
    by_cases space : c = .scalar ' '
    · subst space
      exact ih placed.2
    · rw [List.dropWhile_cons_of_neg (by simpa using space)]
      rintro d head
      obtain rfl := Option.some.inj head
      exact Bool.eq_false_iff.mpr fun foreign => absurd (placed.1.foreign foreign) (by simp)

/-- A line of printed text starts with the notation, behind its spaces. -/
theorem head_of_line {t : Text} (settled : IsSettled t) {l : Text} (line : l ∈ t.lines) :
    ∀ c ∈ (l.dropWhile (· = .scalar ' ')).head?, isForeign c = false := by
  obtain ⟨first, others, cut, here, behind⟩ := each_lines settled.each
  rw [cut] at line
  exact head_dropWhile ((List.forall_mem_cons.mpr ⟨here, behind⟩) l line)

end Grimoire.Json
