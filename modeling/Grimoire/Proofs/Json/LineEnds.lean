import Grimoire.Proofs.Json.Limits
import Grimoire.Proofs.Text.LineEnds
import Mathlib.Data.List.Find

/-!
# Line ends

Documents are read alike however their lines end. Between tokens every way to end a line is skipped,
inside a text none may stand, and no other token goes on across one. So every part of the reader takes
texts with the same lines apart alike, and a text with its line ends made line feeds is read as the same
value, or is refused for the same cause (`Json.document_sameLines`, `Json.read_unixNewlines`).
-/

namespace Grimoire

namespace Json

open Text (SameLines)

theorem skip_sameLines {s t : Text} (same : SameLines s t) : SameLines (skip s) (skip t) := by
  induction same with
  | nil => exact .nil
  | @keep c t u plain rest ih =>
    cases gap : isGap c with
    | true => simpa [skip, gap] using ih
    | false => simpa [skip, gap] using SameLines.keep plain rest
  | single rest ih => exact ih
  | pair rest ih => exact ih

/-- Whether parts of two texts were read alike: the same result with the same lines behind it. -/
def Alike {α : Type} (a b : α × Text) : Prop := a.1 = b.1 ∧ SameLines a.2 b.2

/-- A stop without its place. -/
def Stop.cause : Stop → Stop
  | malformed fault _ => malformed fault []
  | stop => stop

/-- Whether outcomes are related: results by a relation of their own, stops by their causes. -/
inductive Outcomes {α β : Type} (related : α → β → Prop) : Except Stop α → Except Stop β → Prop
  | ok {a : α} {b : β} (results : related a b) : Outcomes related (.ok a) (.ok b)
  | error {e f : Stop} (causes : e.cause = f.cause) : Outcomes related (.error e) (.error f)

section Outcomes

variable {α β : Type} {related : α → β → Prop}

theorem Outcomes.ok_left {a : α} {y : Except Stop β} (outcomes : Outcomes related (.ok a) y) :
    ∃ b, y = .ok b ∧ related a b := by
  cases outcomes with
  | ok results => exact ⟨_, rfl, results⟩

theorem Outcomes.error_left {e : Stop} {y : Except Stop β}
    (outcomes : Outcomes related (.error e) y) : ∃ f, y = .error f ∧ e.cause = f.cause := by
  cases outcomes with
  | error causes => exact ⟨_, rfl, causes⟩

end Outcomes

/-! ## Numbers and words -/

theorem spanDigits_sameLines {s t : Text} (same : SameLines s t) :
    Alike (spanDigits s) (spanDigits t) := same.span (by decide)

theorem wholePart?_sameLines {s t : Text} (same : SameLines s t) :
    Option.Rel Alike (wholePart? s) (wholePart? t) := by
  cases same with
  | nil => exact .none
  | @keep c t u plain rest =>
    by_cases zero : c = .scalar '0'
    · subst zero
      exact .some ⟨rfl, rest⟩
    · rw [wholePart?.eq_2 _ _ zero, wholePart?.eq_2 _ _ zero]
      split
      · exact .some (spanDigits_sameLines (.keep plain rest))
      · exact .none
  | single => exact .none
  | pair => exact .none

theorem fraction_sameLines {s t : Text} (same : SameLines s t) :
    Alike (fraction s) (fraction t) := by
  cases same with
  | nil => exact ⟨rfl, .nil⟩
  | @keep c t u plain rest =>
    by_cases point : c = .scalar '.'
    · subst point
      cases rest with
      | nil => exact ⟨rfl, .keep plain .nil⟩
      | keep plain' rest =>
        rw [fraction.eq_1, fraction.eq_1]
        split
        · exact spanDigits_sameLines (.keep plain' rest)
        · exact ⟨rfl, .keep plain (.keep plain' rest)⟩
      | single rest => exact ⟨rfl, .keep plain (.single rest)⟩
      | pair rest => exact ⟨rfl, .keep plain (.pair rest)⟩
    · have alone (r : Text) : fraction (c :: r) = ([], c :: r) := by
        unfold fraction
        split
        · next heq => exact absurd (List.cons.inj heq).1 point
        · rfl
      rw [alone, alone]
      exact ⟨rfl, .keep plain rest⟩
  | single rest => exact ⟨rfl, .single rest⟩
  | pair rest => exact ⟨rfl, .pair rest⟩

theorem sign_sameLines {s t : Text} (same : SameLines s t) : Alike (sign s) (sign t) := by
  unfold sign
  split
  · obtain ⟨u, rfl, rest⟩ := same.left (by decide)
    exact ⟨rfl, rest⟩
  · obtain ⟨u, rfl, rest⟩ := same.left (by decide)
    exact ⟨rfl, rest⟩
  · next minus plus =>
    split
    · exact absurd rfl (same.ne_cons minus (by decide) _)
    · exact absurd rfl (same.ne_cons plus (by decide) _)
    · exact ⟨rfl, same⟩

theorem power_sameLines {s t : Text} (same : SameLines s t) : Alike (power s) (power t) := by
  cases same with
  | nil => exact ⟨rfl, .nil⟩
  | @keep c t u plain rest =>
    cases c with
    | scalar e =>
      obtain ⟨signs, digits⟩ := sign_sameLines rest
      obtain ⟨digits, behind⟩ := spanDigits_sameLines digits
      simp only [power, signs, digits]
      split
      · exact ⟨rfl, behind⟩
      · exact ⟨rfl, .keep plain rest⟩
    | surrogate => exact ⟨rfl, .keep plain rest⟩
  | single rest => exact ⟨rfl, by simpa [power] using SameLines.single rest⟩
  | pair rest => exact ⟨rfl, .pair rest⟩

theorem unsigned?_sameLines {s t : Text} (negative : Bool) (same : SameLines s t) :
    Option.Rel Alike (unsigned? negative s) (unsigned? negative t) := by
  have parts := wholePart?_sameLines same
  unfold unsigned?
  generalize wholePart? s = a, wholePart? t = b at parts ⊢
  cases parts with
  | none => exact .none
  | @some a b parts =>
    obtain ⟨whole, r⟩ := a
    obtain ⟨whole', r'⟩ := b
    obtain ⟨rfl, rest⟩ : whole = whole' ∧ SameLines r r' := parts
    obtain ⟨decimals, rest⟩ := fraction_sameLines rest
    obtain ⟨exponent, rest⟩ := power_sameLines rest
    simp only [decimals, exponent]
    split
    · split
      · exact .some ⟨rfl, rest⟩
      · exact .some ⟨rfl, rest⟩
    · exact .some ⟨rfl, rest⟩

theorem atom?_sameLines {s t : Text} (same : SameLines s t) :
    Option.Rel Alike (atom? s) (atom? t) := by
  have flat : ∀ entry ∈ words, ∀ c ∈ entry.1, c ≠ .scalar '\r' ∧ c ≠ .scalar '\n' := by decide
  have found : words.find? (fun entry => entry.1.isPrefixOf s)
      = words.find? fun entry => entry.1.isPrefixOf t :=
    List.find?_congr fun entry listed => same.isPrefixOf (flat entry listed)
  unfold atom?
  rw [← found]
  split
  · next word v first =>
    obtain ⟨r, rfl⟩ : word <+: s := by simpa using List.find?_some first
    obtain ⟨u, rfl, rest⟩ :=
      same.prefix_left fun c member => (flat _ (List.mem_of_find?_eq_some first) c member).1
    rw [List.drop_left, List.drop_left]
    exact .some ⟨rfl, rest⟩
  · split
    · obtain ⟨u, rfl, rest⟩ := same.left (by decide)
      exact unsigned?_sameLines true rest
    · next plain =>
      split
      · exact absurd rfl (same.ne_cons plain (by decide) _)
      · exact unsigned?_sameLines false same

/-! ## Texts -/

/-- The number of an escape behind its letter, if something follows its digits. -/
def number? : Text → Option (Nat × Text)
  | a :: b :: c :: d :: e :: s => (unit? a b c d).map (·, e :: s)
  | _ => none

theorem number?_eq_some {s r : Text} {u : Nat} :
    number? s = some (u, r) ↔
      ∃ a b c d, unit? a b c d = some u ∧ r ≠ [] ∧ s = [a, b, c, d] ++ r := by
  constructor
  · intro some
    unfold number? at some
    split at some
    · next a b c d e s =>
      obtain ⟨v, value, pair⟩ := Option.map_eq_some_iff.mp some
      obtain ⟨rfl, rfl⟩ := Prod.mk.inj pair
      exact ⟨a, b, c, d, value, by simp, rfl⟩
    · exact absurd some (by simp)
  · rintro ⟨a, b, c, d, value, more, rfl⟩
    obtain ⟨e, r, rfl⟩ := List.exists_cons_of_ne_nil more
    simp [number?, value]

/-- Digits end no line. -/
theorem flat_of_unit? {a b c d : CodePoint} {u : Nat} (value : unit? a b c d = some u) :
    ∀ x ∈ [a, b, c, d], x ≠ .scalar '\r' ∧ x ≠ .scalar '\n' := by
  have flat {x : CodePoint} {n : Nat} (digit : hexDigit? x = some n) :
      x ≠ .scalar '\r' ∧ x ≠ .scalar '\n' := by
    constructor <;> rintro rfl <;> cases digit
  simp only [unit?, Option.bind_eq_bind, Option.bind_eq_some_iff] at value
  obtain ⟨_, ha, _, hb, _, hc, _, hd, -⟩ := value
  simp [flat ha, flat hb, flat hc, flat hd]

theorem number?_sameLines {s t : Text} (same : SameLines s t) :
    Option.Rel Alike (number? s) (number? t) := by
  cases first : number? s with
  | some a =>
    obtain ⟨u, r⟩ := a
    obtain ⟨a, b, c, d, value, more, rfl⟩ := number?_eq_some.mp first
    obtain ⟨r', rfl, rest⟩ := same.prefix_left fun x member => (flat_of_unit? value x member).1
    have more' : r' ≠ [] := fun none => more (none ▸ rest).nil_right
    rw [number?_eq_some.mpr ⟨a, b, c, d, value, more', rfl⟩]
    exact .some ⟨rfl, rest⟩
  | none =>
    cases second : number? t with
    | none => exact .none
    | some a =>
      obtain ⟨u, r⟩ := a
      obtain ⟨a, b, c, d, value, more, rfl⟩ := number?_eq_some.mp second
      obtain ⟨r', rfl, rest⟩ := same.prefix_right fun x member => (flat_of_unit? value x member).2
      have more' : r' ≠ [] := fun none => more (none ▸ rest).nil_left
      cases first.symm.trans (number?_eq_some.mpr ⟨a, b, c, d, value, more', rfl⟩)

theorem lowUnit?_escape (s : Text) :
    lowUnit? (.scalar '\\' :: .scalar 'u' :: s)
      = (number? s).filter fun a => 0xDC00 ≤ a.1 ∧ a.1 < 0xE000 := by
  fun_cases number? s with
  | case1 a b c d e s =>
    rw [lowUnit?.eq_1]
    cases unit? a b c d with
    | none => rfl
    | some u => simp [Option.filter]
  | case2 _ short =>
    rw [lowUnit?.eq_2]
    · rfl
    · intro a b c d e s heq
      exact short a b c d e s (by simpa using heq)

theorem string_escape (start done s : Text) :
    string start done (.scalar '\\' :: .scalar 'u' :: s) =
      match number? s with
      | none => .error (.malformed .invalidUnicodeEscape (.scalar 'u' :: s))
      | some (u, r) =>
        if 0xD800 ≤ u ∧ u < 0xDC00 then
          match lowUnit? r with
          | some (low, r) => string start (pairCodePoint u low :: done) r
          | none => string start (unitCodePoint u :: done) r
        else string start (unitCodePoint u :: done) r := by
  fun_cases number? s with
  | case1 a b c d e s =>
    rw [string.eq_4]
    cases unit? a b c d with
    | none => rfl
    | some u =>
      simp only [Option.map_some]
      split
      · split <;> simp [*]
      · rfl
  | case2 _ short => exact string.eq_5 _ _ _ short

theorem lowUnit?_sameLines {s t : Text} (same : SameLines s t) :
    Option.Rel Alike (lowUnit? s) (lowUnit? t) := by
  by_cases escape : [.scalar '\\', .scalar 'u'] <+: s
  · obtain ⟨r, rfl⟩ := escape
    obtain ⟨u, rfl, rest⟩ := same.prefix_left (by decide)
    have numbers := number?_sameLines rest
    simp only [List.cons_append, List.nil_append, lowUnit?_escape]
    generalize number? r = a, number? u = b at numbers ⊢
    cases numbers with
    | none => exact .none
    | @some a b alike =>
      simp only [Option.filter, alike.1]
      split
      · exact .some alike
      · exact .none
  · have escape' : ¬[.scalar '\\', .scalar 'u'] <+: t := by
      rintro ⟨u, rfl⟩
      obtain ⟨r, rfl, -⟩ := same.prefix_right (by decide)
      exact escape (List.prefix_append _ _)
    rw [lowUnit?.eq_2, lowUnit?.eq_2]
    · exact .none
    · rintro a b c d e r rfl
      exact escape' (List.prefix_append _ _)
    · rintro a b c d e r rfl
      exact escape (List.prefix_append _ _)

/-- An escape by number in the first text is one in the second text, too. -/
theorem escape_of_sameLines {a b c d e : CodePoint} {r t : Text} {u : Nat}
    (same : SameLines (.scalar '\\' :: .scalar 'u' :: a :: b :: c :: d :: e :: r) t)
    (value : unit? a b c d = some u) :
    ∃ s r', t = .scalar '\\' :: .scalar 'u' :: s ∧ number? s = some (u, r') ∧
      SameLines (e :: r) r' := by
  obtain ⟨_, rfl, letter⟩ := same.left (by decide)
  obtain ⟨s, rfl, rest⟩ := letter.left (by decide)
  have numbers := number?_sameLines rest
  simp only [number?.eq_1, value, Option.map_some] at numbers
  cases second : number? s with
  | none =>
    rw [second] at numbers
    cases numbers
  | some b =>
    obtain ⟨v, r'⟩ := b
    rw [second] at numbers
    cases numbers with
    | some alike =>
      obtain ⟨rfl, behind⟩ : u = v ∧ SameLines (e :: r) r' := alike
      exact ⟨s, r', rfl, second, behind⟩

/-- No line ends inside a text, and escapes stand for line ends in both texts alike. -/
theorem string_sameLines (start start' done : Text) {s t : Text} (same : SameLines s t) :
    Outcomes Alike (string start done s) (string start' done t) := by
  -- By the reader's own recursion on the first text; the second one is read by the same equation, since
  -- a code point that decides which equation holds is no line end.
  fun_induction string start done s generalizing t with
  | case1 done =>
    obtain rfl := same.nil_left
    rw [string.eq_1]
    exact .error rfl
  | case2 done r =>
    obtain ⟨u, rfl, rest⟩ := same.left (by decide)
    rw [string.eq_2]
    exact .ok ⟨rfl, rest⟩
  | case3 done =>
    obtain ⟨u, rfl, rest⟩ := same.left (by decide)
    obtain rfl := rest.nil_left
    rw [string.eq_3]
    exact .error rfl
  | case4 done a b c d e r noUnit =>
    obtain ⟨_, rfl, letter'⟩ := same.left (by decide)
    obtain ⟨u, rfl, rest⟩ := letter'.left (by decide)
    have numbers := number?_sameLines rest
    rw [string_escape]
    simp only [number?.eq_1, noUnit, Option.map_none] at numbers
    generalize number? u = n at numbers ⊢
    cases numbers
    exact .error rfl
  | case5 done a b c d e r n unit high low r' pair ih =>
    obtain ⟨s', t', rfl, number, rest⟩ := escape_of_sameLines same unit
    have lows := lowUnit?_sameLines rest
    rw [string_escape]
    simp only [number, if_pos high]
    rw [pair] at lows
    generalize lowUnit? t' = a at lows ⊢
    cases lows with
    | @some _ b alike =>
      obtain ⟨low', t''⟩ := b
      obtain ⟨rfl, behind⟩ : low = low' ∧ SameLines r' t'' := alike
      exact ih behind
  | case6 done a b c d e r n unit high alone ih =>
    obtain ⟨s', t', rfl, number, rest⟩ := escape_of_sameLines same unit
    have lows := lowUnit?_sameLines rest
    rw [string_escape]
    simp only [number, if_pos high]
    rw [alone] at lows
    generalize lowUnit? t' = a at lows ⊢
    cases lows
    exact ih rest
  | case7 done a b c d e r n unit single ih =>
    obtain ⟨s', t', rfl, number, rest⟩ := escape_of_sameLines same unit
    rw [string_escape]
    simp only [number, if_neg single]
    exact ih rest
  | case8 done r short =>
    obtain ⟨_, rfl, letter'⟩ := same.left (by decide)
    obtain ⟨u, rfl, rest⟩ := letter'.left (by decide)
    have numbers := number?_sameLines rest
    rw [string_escape]
    rw [number?.eq_2 _ short] at numbers
    generalize number? u = n at numbers ⊢
    cases numbers
    exact .error rfl
  | case9 done c r hlong letter e escaped ih =>
    have plain : c ≠ .scalar '\r' := by
      rintro rfl
      cases escaped
    obtain ⟨_, rfl, letter'⟩ := same.left (by decide)
    obtain ⟨u, rfl, rest⟩ := letter'.left plain
    rw [string_simple _ _ _ letter escaped]
    exact ih rest
  | case10 done c r hlong letter unknown =>
    -- What is escaped may be a line end here, but none that has an escape.
    obtain ⟨_, rfl, rest⟩ := same.left (by decide)
    obtain ⟨d, u, rfl, ends⟩ := rest.head
    have unknown' : simpleEscape? d = none ∧ d ≠ .scalar 'u' := by
      obtain ⟨-, rfl, -⟩ | ⟨-, rfl⟩ := ends
      · exact ⟨unknown, letter⟩
      · decide
    rw [string.eq_6 _ _ _ _ (fun _ _ _ _ _ _ hd => absurd hd unknown'.2) unknown'.2]
    simp only [unknown'.1]
    exact .error rfl
  | case11 done c r quote backslash control =>
    -- Both ways to end a line are control characters.
    obtain ⟨d, u, rfl, ends⟩ := same.head
    have control' : d.val < 0x20 ∧ d ≠ .scalar '"' ∧ d ≠ .scalar '\\' := by
      obtain ⟨-, rfl, -⟩ | ⟨-, rfl⟩ := ends
      · exact ⟨control, quote, backslash⟩
      · decide
    rw [string.eq_7 _ _ _ _ control'.2.1 control'.2.2, if_pos control'.1]
    exact .error rfl
  | case12 done c r quote backslash control ih =>
    have plain : c ≠ .scalar '\r' := by
      rintro rfl
      exact control (by decide)
    obtain ⟨u, rfl, rest⟩ := same.left plain
    rw [string_plain _ _ _ quote backslash control]
    exact ih rest

/-! ## Values and documents -/

/-- Whether the fronts of two texts were read alike. -/
def AlikeFronts {α : Type} {m n : Nat} (a : α × Shorter m) (b : α × Shorter n) : Prop :=
  a.1 = b.1 ∧ SameLines a.2.val b.2.val

/-- What was read of a front, and the text behind it. -/
def front {α : Type} {n : Nat} (a : α × Shorter n) : α × Text := (a.1, a.2.val)

section Fronts

variable {α β : Type} {m n : Nat} {x : Except Stop (α × Shorter m)} {y : Except Stop (α × Shorter n)}

theorem outcomes_of_map_front (outcomes : Outcomes Alike (x.map front) (y.map front)) :
    Outcomes AlikeFronts x y := by
  cases x with
  | error e =>
    obtain ⟨f, failed, causes⟩ := outcomes.error_left
    cases y with
    | error f' =>
      obtain rfl := Except.error.inj failed
      exact .error causes
    | ok b => cases failed
  | ok a =>
    obtain ⟨b, read, results⟩ := outcomes.ok_left
    cases y with
    | error f => cases read
    | ok b' =>
      obtain rfl := Except.ok.inj read
      exact .ok results

/-- Making the same of results that were read alike gives results that were read alike. -/
theorem Outcomes.map (outcomes : Outcomes AlikeFronts x y) (f : α → β) :
    Outcomes AlikeFronts (x.map fun a => (f a.1, a.2)) (y.map fun b => (f b.1, b.2)) := by
  cases outcomes with
  | ok results => exact .ok ⟨congrArg f results.1, results.2⟩
  | error causes => exact .error causes

end Fronts

/-- Whether an inner reader reads texts with the same lines alike. -/
def Inner.IgnoresEnds (inner : Inner) : Prop :=
  ∀ s t, SameLines s t → Outcomes AlikeFronts (inner s) (inner t)

/-- A member's name is a text, and a colon behind it. -/
theorem map_memberName (r : Text) : (memberName (.scalar '"' :: r)).map front =
    match string (.scalar '"' :: r) [] r with
    | .error e => .error e
    | .ok (key, r₁) =>
      match skip r₁ with
      | .scalar ':' :: r₂ => .ok (key, r₂)
      | r₂ => .error (.malformed .expectingColon r₂) := by
  rw [memberName.eq_1]
  split
  · next failed => simp only [failed, Except.map]
  · next name =>
    simp only [name]
    split
    · next colon => simp only [colon, Except.map, front]
    · next other =>
      split
      · next r₂ colon => exact absurd colon (other r₂)
      · rfl

theorem memberName_sameLines {s t : Text} (same : SameLines s t) :
    Outcomes AlikeFronts (memberName s) (memberName t) := by
  by_cases quoted : ∃ r, s = .scalar '"' :: r
  · obtain ⟨r, rfl⟩ := quoted
    obtain ⟨u, rfl, rest⟩ := same.left (by decide)
    have names := string_sameLines (.scalar '"' :: r) (.scalar '"' :: u) [] rest
    apply outcomes_of_map_front
    rw [map_memberName, map_memberName]
    generalize string (.scalar '"' :: r) [] r = a, string (.scalar '"' :: u) [] u = b at names ⊢
    cases names with
    | error causes => exact .error causes
    | @ok a b alike =>
      obtain ⟨key, r₁⟩ := a
      obtain ⟨key', r₁'⟩ := b
      obtain ⟨rfl, behind⟩ : key = key' ∧ SameLines r₁ r₁' := alike
      have gaps := skip_sameLines behind
      dsimp only
      split
      · next r₂ colon =>
        obtain ⟨r₂', colon', last⟩ := (colon ▸ gaps).left (by decide)
        rw [colon']
        exact .ok ⟨rfl, last⟩
      · next other =>
        split
        · next r₂' colon' => exact absurd colon' (gaps.ne_cons other (by decide) r₂')
        · exact .error rfl
  · rw [not_exists] at quoted
    rw [memberName.eq_2 _ quoted, memberName.eq_2 _ (same.ne_cons quoted (by decide))]
    exact .error rfl

section Containers

variable {inner : Inner} (ignores : inner.IgnoresEnds)

include ignores

/-- Where the first text has a value, the second one has the same value. -/
theorem Inner.IgnoresEnds.ok {s t : Text} (same : SameLines s t) {v : Json} {r : Shorter s.length}
    (read : inner s = .ok (v, r)) :
    ∃ r' shorter, inner t = .ok (v, ⟨r', shorter⟩) ∧ SameLines r.val r' := by
  obtain ⟨⟨w, r', shorter⟩, read', rfl, rest⟩ := (read ▸ ignores s t same).ok_left
  exact ⟨r', shorter, read', rest⟩

theorem Inner.IgnoresEnds.error {s t : Text} (same : SameLines s t) {e : Stop}
    (read : inner s = .error e) : ∃ f, inner t = .error f ∧ e.cause = f.cause :=
  (read ▸ ignores s t same).error_left

theorem items_sameLines {m n : Nat} (done : List Json) {s t : Text} (same : SameLines s t)
    (fits : s.length < m) (fits' : t.length < n) :
    Outcomes AlikeFronts (items inner m done s fits) (items inner n done t fits') := by
  fun_induction items inner m done s fits generalizing t with
  | case1 done s fits e failed =>
    obtain ⟨f, failed', causes⟩ := ignores.error same failed
    rw [items]
    simp only [failed']
    exact .error causes
  | case2 done s fits v r shorter read u close =>
    obtain ⟨r', shorter', read', rest⟩ := ignores.ok same read
    obtain ⟨u', close', behind⟩ := (close ▸ skip_sameLines rest).left (by decide)
    obtain ⟨fits, eq⟩ := items_last done fits' shorter' read' close'
    rw [eq]
    exact .ok ⟨List.reverse_cons .., behind⟩
  | case3 done s fits v r shorter read u comma less ih =>
    obtain ⟨r', shorter', read', rest⟩ := ignores.ok same read
    obtain ⟨u', comma', behind⟩ := (comma ▸ skip_sameLines rest).left (by decide)
    obtain ⟨fits, eq⟩ := items_more done fits' shorter' read' comma' rfl
    rw [eq]
    exact ih (skip_sameLines behind) _
  | case4 done s fits v r shorter read close comma =>
    obtain ⟨r', shorter', read', rest⟩ := ignores.ok same read
    rw [items]
    simp only [read']
    split
    · next heq => exact absurd heq ((skip_sameLines rest).ne_cons close (by decide) _)
    · next heq => exact absurd heq ((skip_sameLines rest).ne_cons comma (by decide) _)
    · exact .error rfl

theorem members_sameLines {m n : Nat} (done : Members) {s t : Text} (same : SameLines s t)
    (fits : s.length < m) (fits' : t.length < n) :
    Outcomes AlikeFronts (members inner m done s fits) (members inner n done t fits') := by
  fun_induction members inner m done s fits generalizing t with
  | case1 done s fits e failed =>
    obtain ⟨f, failed', causes⟩ := (failed ▸ memberName_sameLines same).error_left
    rw [members]
    simp only [failed']
    exact .error causes
  | case2 done s fits key r₁ h₁ name e failed =>
    obtain ⟨⟨_, r₁', h₁'⟩, name', rfl, rest⟩ := (name ▸ memberName_sameLines same).ok_left
    obtain ⟨f, failed', causes⟩ := ignores.error (skip_sameLines rest) failed
    rw [members]
    simp only [name', failed']
    exact .error causes
  | case3 done s fits key r₁ h₁ name v r₂ h₂ read less u close =>
    obtain ⟨⟨_, r₁', h₁'⟩, name', rfl, rest⟩ := (name ▸ memberName_sameLines same).ok_left
    obtain ⟨r₂', h₂', read', behind⟩ := ignores.ok (skip_sameLines rest) read
    obtain ⟨u', close', last⟩ := (close ▸ skip_sameLines behind).left (by decide)
    rw [members]
    simp only [name', read']
    split
    · next heq =>
      obtain ⟨-, rfl⟩ := List.cons.inj (close'.symm.trans heq)
      exact .ok ⟨rfl, last⟩
    · next heq => cases close'.symm.trans heq
    · next other _ => exact absurd close' (other u')
  | case4 done s fits key r₁ h₁ name v r₂ h₂ read less u comma _ ih =>
    obtain ⟨⟨_, r₁', h₁'⟩, name', rfl, rest⟩ := (name ▸ memberName_sameLines same).ok_left
    obtain ⟨r₂', h₂', read', behind⟩ := ignores.ok (skip_sameLines rest) read
    obtain ⟨u', comma', next⟩ := (comma ▸ skip_sameLines behind).left (by decide)
    rw [members.eq_1 _ n _ t]
    simp only [name', read']
    split
    · next heq => cases comma'.symm.trans heq
    · next heq =>
      obtain ⟨-, rfl⟩ := List.cons.inj (comma'.symm.trans heq)
      exact ih (skip_sameLines next) _
    · next _ other => exact absurd comma' (other u')
  | case5 done s fits key r₁ h₁ name v r₂ h₂ read less close comma =>
    obtain ⟨⟨_, r₁', h₁'⟩, name', rfl, rest⟩ := (name ▸ memberName_sameLines same).ok_left
    obtain ⟨r₂', h₂', read', behind⟩ := ignores.ok (skip_sameLines rest) read
    have gaps := skip_sameLines behind
    rw [members]
    simp only [name', read']
    split
    · next heq => exact absurd heq (gaps.ne_cons close (by decide) _)
    · next heq => exact absurd heq (gaps.ne_cons comma (by decide) _)
    · exact .error rfl

end Containers

section Openers

variable {inner : Inner} (ignores : inner.IgnoresEnds) {r u : Text} (rest : SameLines r u)

include ignores rest

theorem valueWith_arr_sameLines :
    Outcomes AlikeFronts (valueWith (some inner) (.scalar '[' :: r))
      (valueWith (some inner) (.scalar '[' :: u)) := by
  have gaps := skip_sameLines rest
  by_cases close : ∃ t, skip r = .scalar ']' :: t
  · obtain ⟨t, close⟩ := close
    obtain ⟨t', close', behind⟩ := (close ▸ gaps).left (by decide)
    obtain ⟨shorter, read⟩ := valueWith_arr_close inner close
    obtain ⟨shorter', read'⟩ := valueWith_arr_close inner close'
    rw [read, read']
    exact .ok ⟨rfl, behind⟩
  · rw [not_exists] at close
    obtain ⟨fits, read⟩ := valueWith_arr_items inner close
    obtain ⟨fits', read'⟩ := valueWith_arr_items inner (gaps.ne_cons close (by decide))
    rw [read, read']
    exact (items_sameLines ignores [] gaps fits fits').map arr

theorem valueWith_obj_sameLines :
    Outcomes AlikeFronts (valueWith (some inner) (.scalar '\x7b' :: r))
      (valueWith (some inner) (.scalar '\x7b' :: u)) := by
  have gaps := skip_sameLines rest
  by_cases close : ∃ t, skip r = .scalar '\x7d' :: t
  · obtain ⟨t, close⟩ := close
    obtain ⟨t', close', behind⟩ := (close ▸ gaps).left (by decide)
    obtain ⟨shorter, read⟩ := valueWith_obj_close inner close
    obtain ⟨shorter', read'⟩ := valueWith_obj_close inner close'
    rw [read, read']
    exact .ok ⟨rfl, behind⟩
  · rw [not_exists] at close
    obtain ⟨fits, read⟩ := valueWith_obj_members inner close
    obtain ⟨fits', read'⟩ := valueWith_obj_members inner (gaps.ne_cons close (by decide))
    rw [read, read']
    exact (members_sameLines ignores [] gaps fits fits').map obj

end Openers

theorem map_valueWith_str (inner : Option Inner) (r : Text) :
    (valueWith inner (.scalar '"' :: r)).map front
      = (string (.scalar '"' :: r) [] r).map fun a => (str a.1, a.2) := by
  rw [valueWith.eq_1]
  split
  · next failed => simp only [failed, Except.map]
  · next read => simp only [read, Except.map, front]

theorem valueWith_str_sameLines (inner : Option Inner) {r u : Text} (rest : SameLines r u) :
    Outcomes AlikeFronts (valueWith inner (.scalar '"' :: r))
      (valueWith inner (.scalar '"' :: u)) := by
  apply outcomes_of_map_front
  have texts := string_sameLines (.scalar '"' :: r) (.scalar '"' :: u) [] rest
  rw [map_valueWith_str, map_valueWith_str]
  generalize string (.scalar '"' :: r) [] r = a, string (.scalar '"' :: u) [] u = b at texts ⊢
  cases texts with
  | ok results => exact .ok ⟨congrArg str results.1, results.2⟩
  | error causes => exact .error causes

/-- What starts no text and no container is a number or a word, or no value at all. -/
theorem map_valueWith_atom (inner : Option Inner) {s : Text}
    (plain : ∀ c ∈ [CodePoint.scalar '"', .scalar '[', .scalar '\x7b'], ∀ r, s ≠ c :: r) :
    (valueWith inner s).map front =
      match atom? s with
      | none => .error (.malformed .expectingValue s)
      | some (.error e, _) => .error e
      | some (.ok v, rest) => .ok (v, rest) := by
  rw [valueWith.eq_6 _ _ (plain _ (by simp)) (plain _ (by simp)) (plain _ (by simp))]
  split
  · next none => simp only [none, Except.map]
  · next refused => simp only [refused, Except.map]
  · next read => simp only [read, Except.map, front]

theorem valueWith_atom_sameLines (inner : Option Inner) {s t : Text} (same : SameLines s t)
    (plain : ∀ c ∈ [CodePoint.scalar '"', .scalar '[', .scalar '\x7b'], ∀ r, s ≠ c :: r) :
    Outcomes AlikeFronts (valueWith inner s) (valueWith inner t) := by
  have plain' : ∀ c ∈ [CodePoint.scalar '"', .scalar '[', .scalar '\x7b'], ∀ r, t ≠ c :: r :=
    fun c opens => same.ne_cons (plain c opens) (by rintro rfl; simp at opens)
  apply outcomes_of_map_front
  have atoms := atom?_sameLines same
  rw [map_valueWith_atom inner plain, map_valueWith_atom inner plain']
  generalize atom? s = a, atom? t = b at atoms ⊢
  cases atoms with
  | none => exact .error rfl
  | @some a b alike =>
    obtain ⟨outcome, r⟩ := a
    obtain ⟨outcome', r'⟩ := b
    obtain ⟨rfl, rest⟩ : outcome = outcome' ∧ SameLines r r' := alike
    cases outcome with
    | error e => exact .error rfl
    | ok v => exact .ok ⟨rfl, rest⟩

theorem valueWith_sameLines {inner : Option Inner} (ignores : ∀ i ∈ inner, i.IgnoresEnds)
    {s t : Text} (same : SameLines s t) :
    Outcomes AlikeFronts (valueWith inner s) (valueWith inner t) := by
  by_cases plain : ∀ c ∈ [CodePoint.scalar '"', .scalar '[', .scalar '\x7b'], ∀ r, s ≠ c :: r
  · exact valueWith_atom_sameLines inner same plain
  · simp only [not_forall, ne_eq, not_not] at plain
    obtain ⟨c, opens, r, rfl⟩ := plain
    obtain ⟨u, rfl, rest⟩ := same.left (by rintro rfl; simp at opens)
    simp only [List.mem_cons, List.not_mem_nil, or_false] at opens
    obtain rfl | rfl | rfl := opens
    · exact valueWith_str_sameLines inner rest
    · cases inner with
      | none => exact .error rfl
      | some i => exact valueWith_arr_sameLines (ignores i rfl) rest
    · cases inner with
      | none => exact .error rfl
      | some i => exact valueWith_obj_sameLines (ignores i rfl) rest

theorem ignoresEnds_value (depth : Nat) : Inner.IgnoresEnds (value depth) := by
  induction depth with
  | zero => exact fun _ _ => valueWith_sameLines (by simp)
  | succ depth ih => exact fun _ _ => valueWith_sameLines (by simpa using ih)

/-- Texts with the same lines hold the same value, or are refused for the same cause. -/
theorem document_sameLines (room : Nat) {s t : Text} (same : SameLines s t) :
    (document room s).mapError Stop.cause = (document room t).mapError Stop.cause := by
  by_cases mark : ∃ r, s = .scalar '\uFEFF' :: r
  · obtain ⟨r, rfl⟩ := mark
    obtain ⟨u, rfl, -⟩ := same.left (by decide)
    rfl
  · rw [not_exists] at mark
    rw [document.eq_2 _ _ mark, document.eq_2 _ _ (same.ne_cons mark (by decide))]
    have values := ignoresEnds_value room _ _ (skip_sameLines same)
    generalize value room (skip s) = x, value room (skip t) = y at values ⊢
    cases values with
    | error causes => exact congrArg Except.error causes
    | @ok a b results =>
      obtain ⟨v, rest⟩ := a
      obtain ⟨w, rest'⟩ := b
      obtain ⟨rfl, behind⟩ : v = w ∧ SameLines rest.val rest'.val := results
      have gaps := skip_sameLines behind
      dsimp only
      generalize skip rest.val = gap, skip rest'.val = gap' at gaps ⊢
      cases gaps with
      | nil => rfl
      | keep | single | pair => rfl

/-- Texts with the same lines are read as the same value, refused for the same fault, which may lie at
another place, or given up for the same limit. -/
theorem read_sameLines (room : Nat) {s t : Text} (same : SameLines s t) :
    (∃ v, read room s = .ok v ∧ read room t = .ok v) ∨
    (∃ e f, read room s = .error (.malformed e) ∧ read room t = .error (.malformed f) ∧
      e.fault = f.fault) ∨
    ∃ limit : ReadError, limit.IsLimit ∧ read room s = .error limit ∧ read room t = .error limit := by
  have documents := document_sameLines room same
  unfold read
  cases first : document room s with
  | ok v =>
    cases second : document room t with
    | ok w =>
      obtain rfl : v = w := by simpa [first, second, Except.mapError] using documents
      exact .inl ⟨v, rfl, rfl⟩
    | error f => simp [first, second, Except.mapError] at documents
  | error e =>
    cases second : document room t with
    | ok w => simp [first, second, Except.mapError] at documents
    | error f =>
      have causes : e.cause = f.cause := by
        simpa [first, second, Except.mapError] using documents
      cases e <;> cases f <;> cases causes
      · exact .inr (.inl ⟨_, _, rfl, rfl, rfl⟩)
      · exact .inr (.inr ⟨.tooDeep _, trivial, rfl, rfl⟩)
      · exact .inr (.inr ⟨.tooManyDigits (some _), trivial, rfl, rfl⟩)

/-- How the lines of a text end decides neither whether it is read nor as what. -/
theorem read_unixNewlines (room : Nat) (t : Text) :
    (read room t.unixNewlines).toOption = (read room t).toOption := by
  obtain ⟨v, first, second⟩ | ⟨e, f, first, second, -⟩ | ⟨limit, -, first, second⟩ :=
    read_sameLines room (Text.sameLines_unixNewlines t)
  · rw [first, second]
  · rw [first, second]
    rfl
  · rw [first, second]

end Json

end Grimoire
