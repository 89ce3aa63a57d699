import Grimoire.Proofs.Entries
import Grimoire.Proofs.Json.Printed

/-!
# Printed values read back

A `Layout` is readable if reading undoes its escapes and if it puts nothing but blanks between the
parts of a value. What is printed under such a layout reads back as the value with every key of an
object once (`Json.value_print`), as long as no integer has too many digits and the value is not
nested too deep. What is read never has a key twice (`Json.isProper_of_read`).
-/

namespace Grimoire

theorem CodePoint.ofNat?_val (c : CodePoint) : CodePoint.ofNat? c.val = some c := by
  cases c with
  | scalar c =>
    have valid : c.toNat.isValidChar := c.valid
    rw [CodePoint.ofNat?, CodePoint.val, dif_pos valid]
    exact congrArg (fun d => some (scalar d)) (Char.toNat_inj.mp rfl)
  | surrogate s =>
    have bound := s.isLt
    have invalid : ¬(0xD800 + s.val).isValidChar := by
      simp only [Nat.isValidChar]
      omega
    have between : 0xD800 ≤ 0xD800 + s.val ∧ 0xD800 + s.val < 0xE000 := by omega
    simp [CodePoint.ofNat?, CodePoint.val, invalid, between]

namespace Json

/-! ## Texts -/

/-- Whether reading undoes an escape: what is read behind an escaped code point is read behind the
code point. -/
def IsUndone (escape : CodePoint → Text) : Prop :=
  ∀ (c : CodePoint) (start done s : Text), s ≠ [] →
    string start done (escape c ++ s) = string start (c :: done) s

theorem string_plain {c : CodePoint} (start done s : Text) (quote : c ≠ .scalar '"')
    (backslash : c ≠ .scalar '\\') (control : ¬c.val < 0x20) :
    string start done (c :: s) = string start (c :: done) s := by
  rw [string.eq_7 _ _ _ _ quote backslash, if_neg control]

theorem string_simple {c : CodePoint} {d : Char} (start done s : Text) (letter : c ≠ .scalar 'u')
    (escaped : simpleEscape? c = some d) :
    string start done (.scalar '\\' :: c :: s) = string start (.scalar d :: done) s := by
  rw [string.eq_6 _ _ _ _ (fun _ _ _ _ _ _ hc => absurd hc letter) letter]
  simp only [escaped]

theorem string_unit {a b c d : CodePoint} {u : Nat} (start done s : Text)
    (value : unit? a b c d = some u) (low : u < 0xD800 ∨ 0xDC00 ≤ u) (more : s ≠ []) :
    string start done (.scalar '\\' :: .scalar 'u' :: a :: b :: c :: d :: s)
      = string start (unitCodePoint u :: done) s := by
  obtain ⟨e, s, rfl⟩ := List.exists_cons_of_ne_nil more
  have alone : ¬(0xD800 ≤ u ∧ u < 0xDC00) := by omega
  rw [string.eq_4]
  simp only [value, alone, if_false]

theorem unitCodePoint_val (c : CodePoint) : unitCodePoint c.val = c := by
  rw [unitCodePoint, CodePoint.ofNat?_val, Option.getD_some]

theorem unit?_hex {n : Nat} (control : n < 0x20) :
    ∃ a b c d, Text.hex 4 n = [a, b, c, d] ∧ unit? a b c d = some n := by
  have digits : ∀ n < 0x20, Text.hex 4 n
      = [.scalar '0', .scalar '0', (Text.hex 4 n).getD 2 (.scalar '0'),
        (Text.hex 4 n).getD 3 (.scalar '0')] := by decide
  have value : ∀ n < 0x20, unit? (.scalar '0') (.scalar '0') ((Text.hex 4 n).getD 2 (.scalar '0'))
      ((Text.hex 4 n).getD 3 (.scalar '0')) = some n := by decide
  exact ⟨_, _, _, _, digits n control, value n control⟩

/-- A code point is escaped by a letter, by its number, or not at all. -/
theorem escapeBasic_cases (c : CodePoint) :
    (∃ d e, c = .scalar d ∧ escapeBasic c = [.scalar '\\', e] ∧ e ≠ .scalar 'u' ∧
      simpleEscape? e = some d) ∨
    (c.val < 0x20 ∧ escapeBasic c = "\\u" ++ Text.hex 4 c.val) ∨
    (c ≠ .scalar '"' ∧ c ≠ .scalar '\\' ∧ ¬c.val < 0x20 ∧ escapeBasic c = [c]) := by
  unfold escapeBasic
  split
  · next h => exact .inl ⟨_, _, h, rfl, by decide, rfl⟩
  split
  · next h => exact .inl ⟨_, _, h, rfl, by decide, rfl⟩
  split
  · next h => exact .inl ⟨_, _, h, rfl, by decide, rfl⟩
  split
  · next h => exact .inl ⟨_, _, h, rfl, by decide, rfl⟩
  split
  · next h => exact .inl ⟨_, _, h, rfl, by decide, rfl⟩
  split
  · next h => exact .inl ⟨_, _, h, rfl, by decide, rfl⟩
  split
  · next h => exact .inl ⟨_, _, h, rfl, by decide, rfl⟩
  split
  · next control => exact .inr (.inl ⟨control, rfl⟩)
  · next quote backslash _ _ _ _ _ control => exact .inr (.inr ⟨quote, backslash, control, rfl⟩)

theorem isUndone_escapeBasic : IsUndone escapeBasic := by
  intro c start done s more
  rcases escapeBasic_cases c with ⟨d, e, rfl, escaped, letter, simple⟩ | ⟨control, escaped⟩ |
    ⟨quote, backslash, plain, escaped⟩
  · rw [escaped]
    exact string_simple start done s letter simple
  · obtain ⟨a, b, c', d, digits, value⟩ := unit?_hex control
    have read := string_unit start done s value (.inl (by omega)) more
    rw [unitCodePoint_val] at read
    rw [escaped, digits]
    exact read
  · rw [escaped]
    exact string_plain start done s quote backslash plain

/-- A quoted text is read up to its closing quote. -/
theorem string_quote {escape : CodePoint → Text} (undone : IsUndone escape)
    (start done t rest : Text) :
    string start done (t.flatMap escape ++ .scalar '"' :: rest)
      = .ok (done.reverse ++ t, rest) := by
  induction t generalizing done with
  | nil => simp [string]
  | cons c t ih =>
    rw [List.flatMap_cons, List.append_assoc, undone c start done _ (by simp), ih]
    simp

/-! ## Values -/

mutual

/-- Whether no object in a value has a key twice. -/
def isProper : Json → Bool
  | arr items => isProperItems items
  | obj members => (Entries.keys members).Nodup && isProperMembers members
  | _ => true

/-- Whether no object in items has a key twice. -/
def isProperItems : List Json → Bool
  | [] => true
  | v :: rest => isProper v && isProperItems rest

/-- Whether no object in the values of members has a key twice. -/
def isProperMembers : List (Text × Json) → Bool
  | [] => true
  | (_, v) :: rest => isProper v && isProperMembers rest

end

mutual

/-- The value with every key of an object once: at its first place, with its last value. -/
def merged : Json → Json
  | arr items => arr (mergedItems items)
  | obj members => obj (Entries.putAll [] (mergedMembers members))
  | v => v

/-- Items with every key of an object once. -/
def mergedItems : List Json → List Json
  | [] => []
  | v :: rest => merged v :: mergedItems rest

/-- Members with every key of an object in their values once. -/
def mergedMembers : List (Text × Json) → List (Text × Json)
  | [] => []
  | (k, v) :: rest => (k, merged v) :: mergedMembers rest

end

mutual

/-- Where no object has a key twice, the value stays as it is. -/
theorem merged_of_isProper {v : Json} (proper : v.isProper = true) : v.merged = v := by
  cases v with
  | arr items => exact congrArg arr (mergedItems_of_isProper proper)
  | obj members =>
    rw [isProper, Bool.and_eq_true, decide_eq_true_eq] at proper
    have distinct : (Entries.keys ([] ++ members)).Nodup := proper.1
    rw [merged, mergedMembers_of_isProper proper.2, Entries.putAll_eq_append distinct]
    rfl
  | _ => rfl

theorem mergedItems_of_isProper {items : List Json} (proper : isProperItems items = true) :
    mergedItems items = items := by
  cases items with
  | nil => rfl
  | cons v rest =>
    rw [isProperItems, Bool.and_eq_true] at proper
    rw [mergedItems, merged_of_isProper proper.1, mergedItems_of_isProper proper.2]

theorem mergedMembers_of_isProper {members : Members} (proper : isProperMembers members = true) :
    mergedMembers members = members := by
  cases members with
  | nil => rfl
  | cons m rest =>
    obtain ⟨k, v⟩ := m
    rw [isProperMembers, Bool.and_eq_true] at proper
    rw [mergedMembers, merged_of_isProper proper.1, mergedMembers_of_isProper proper.2]

end

mutual

/-- How deep containers are nested in a value. -/
def nesting : Json → Nat
  | arr items => nestingItems items + 1
  | obj members => nestingMembers members + 1
  | _ => 0

/-- How deep containers are nested in items. -/
def nestingItems : List Json → Nat
  | [] => 0
  | v :: rest => max (nesting v) (nestingItems rest)

/-- How deep containers are nested in the values of members. -/
def nestingMembers : List (Text × Json) → Nat
  | [] => 0
  | (_, v) :: rest => max (nesting v) (nestingMembers rest)

end

mutual

/-- Every container is a level. -/
theorem nesting_le_levels (v : Json) : v.nesting ≤ v.levels := by
  cases v with
  | arr vs => exact Nat.succ_le_succ (nestingItems_le_levelsItems vs)
  | obj ms => exact Nat.succ_le_succ (nestingMembers_le_levelsMembers ms)
  | _ => exact Nat.zero_le _

theorem nestingItems_le_levelsItems (vs : List Json) : nestingItems vs ≤ levelsItems vs := by
  cases vs with
  | nil => exact Nat.le_refl 0
  | cons v vs =>
    have first := nesting_le_levels v
    have others := nestingItems_le_levelsItems vs
    rw [nestingItems, levelsItems]
    omega

theorem nestingMembers_le_levelsMembers (ms : Members) :
    nestingMembers ms ≤ levelsMembers ms := by
  cases ms with
  | nil => exact Nat.le_refl 0
  | cons m ms =>
    have first := nesting_le_levels m.2
    have others := nestingMembers_le_levelsMembers ms
    rw [nestingMembers, levelsMembers]
    omega

end

/-- Whether what is printed under a layout can be read back. -/
structure Layout.IsReadable (l : Layout) : Prop where
  undone : IsUndone l.escape
  edge : ∀ level, ∀ c ∈ l.edge level, isGap c = true
  gap : ∀ level, ∀ c ∈ l.gap level, isGap c = true

/-- Whether a code point may be printed outside of quotes. -/
def isBare (c : CodePoint) : Bool := isAtomic c || isGap c || c ∈ ("[]\x7b\x7d,:" : Text)

/-- What holds of all bare texts and of all quoted ones holds of what they make up. -/
theorem Layout.IsReadable.composes {l : Layout} (readable : l.IsReadable) {P : Text → Prop}
    (append : ∀ {t u : Text}, P t → P u → P (t ++ u))
    (bare : ∀ t : Text, (∀ c ∈ t, isBare c = true) → P t)
    (quoted : ∀ t : Text, P (quote l.escape t)) : l.Composes P where
  append := append
  atomic t atomic := bare t fun c member => by simp [isBare, atomic c member]
  mark c mark := bare [c] (List.forall_mem_singleton.mpr (by revert c; decide))
  quoted := quoted
  edge level := bare _ fun c member => by simp [isBare, readable.edge level c member]
  gap level := bare _ fun c member => by simp [isBare, readable.gap level c member]

theorem skip_append {blank : Text} (blanks : ∀ c ∈ blank, isGap c = true) (rest : Text) :
    skip (blank ++ rest) = skip rest :=
  List.dropWhile_append_of_pos blanks

theorem skip_cons {c : CodePoint} (solid : isGap c = false) (rest : Text) :
    skip (c :: rest) = c :: rest := by
  simp [skip, solid]

theorem isGap_of_startsValue {c : CodePoint} (starts : startsValue c = true) : isGap c = false := by
  rw [Bool.eq_false_iff]
  intro blank
  simp only [isGap, Bool.or_eq_true, decide_eq_true_eq] at blank
  rcases blank with ((rfl | rfl) | rfl) | rfl <;> exact absurd starts (by decide)

theorem skip_print (l : Layout) (level : Nat) (v : Json) (rest : Text) :
    skip (print l level v ++ rest) = print l level v ++ rest := by
  obtain ⟨c, t, text, starts⟩ := head_print l level v
  rw [text, List.cons_append, skip_cons (isGap_of_startsValue starts)]

theorem isAtomic_of_isGap {c : CodePoint} (blank : isGap c = true) : isAtomic c = false := by
  simp only [isGap, Bool.or_eq_true, decide_eq_true_eq] at blank
  rcases blank with ((rfl | rfl) | rfl) | rfl <;> decide

/-- No number goes on behind blanks and a code point that no number holds. -/
theorem isClosed_blank {blank : Text} (blanks : ∀ c ∈ blank, isGap c = true) {c : CodePoint}
    (h : isAtomic c = false) (rest : Text) : IsClosed (blank ++ c :: rest) := by
  cases blank with
  | nil => exact isClosed_cons h
  | cons b blank => exact isClosed_cons (isAtomic_of_isGap (blanks b (by simp)))

section Reading

variable {l : Layout} (readable : l.IsReadable)

include readable

theorem isClosed_printItems (level : Nat) (vs : List Json) (rest : Text) :
    IsClosed (printItems l level vs ++ rest) := by
  cases vs with
  | nil =>
    rw [printItems_nil, List.append_assoc]
    exact isClosed_blank (readable.edge level) (by decide) _
  | cons v vs =>
    rw [printItems_cons]
    exact isClosed_cons (by decide)

theorem isClosed_printMembers (level : Nat) (ms : Members) (rest : Text) :
    IsClosed (printMembers l level ms ++ rest) := by
  cases ms with
  | nil =>
    rw [printMembers_nil, List.append_assoc]
    exact isClosed_blank (readable.edge level) (by decide) _
  | cons m ms =>
    rw [printMembers_cons]
    exact isClosed_cons (by decide)

end Reading

/-- A number or a word is read as such. -/
theorem valueWith_atom {inner : Option Inner} {s rest : Text} {v : Json}
    (read : atom? s = some (.ok v, rest)) (plain : ∀ c ∈ s.head?, isAtomic c = true) :
    ∃ shorter, valueWith inner s = .ok (v, ⟨rest, shorter⟩) := by
  refine ⟨atom?_length_lt read, ?_⟩
  unfold valueWith
  split
  · exact absurd (plain _ rfl) (by decide)
  · exact absurd (plain _ rfl) (by decide)
  · exact absurd (plain _ rfl) (by decide)
  · split
    · next none => exact absurd (none.symm.trans read) (by simp)
    · next error => exact absurd (error.symm.trans read) (by simp)
    · next ok =>
      have same := ok.symm.trans read
      simp only [Option.some.injEq, Prod.mk.injEq, Except.ok.injEq] at same
      obtain ⟨rfl, rfl⟩ := same
      rfl

/-! ## Containers -/

theorem items_last {inner : Inner} {n : Nat} {s r t : Text} {v : Json} (done : List Json)
    (fits : s.length < n) (shorter : r.length < s.length)
    (read : inner s = .ok (v, ⟨r, shorter⟩)) (close : skip r = .scalar ']' :: t) :
    ∃ h, items inner n done s fits = .ok (done.reverse ++ [v], ⟨t, h⟩) := by
  have length := skip_length_le r
  rw [close, List.length_cons] at length
  refine ⟨by omega, ?_⟩
  rw [items]
  simp only [read]
  split
  · next heq =>
    obtain ⟨-, rfl⟩ := List.cons.inj (close.symm.trans heq)
    simp
  · next heq => exact absurd (close.symm.trans heq) (by simp)
  · next other _ => exact absurd close (other t)

theorem items_more {inner : Inner} {n : Nat} {s r t u : Text} {v : Json} (done : List Json)
    (fits : s.length < n) (shorter : r.length < s.length)
    (read : inner s = .ok (v, ⟨r, shorter⟩)) (comma : skip r = .scalar ',' :: t)
    (next : skip t = u) :
    ∃ h, items inner n done s fits = items inner n (v :: done) u h := by
  subst next
  have length := skip_length_le r
  have length' := skip_length_le t
  rw [comma, List.length_cons] at length
  refine ⟨by omega, ?_⟩
  rw [items]
  simp only [read]
  split
  · next heq => exact absurd (comma.symm.trans heq) (by simp)
  · next heq =>
    obtain ⟨-, rfl⟩ := List.cons.inj (comma.symm.trans heq)
    rfl
  · next _ other => exact absurd comma (other t)

/-- A member in front of a text. -/
abbrev memberText (escape : CodePoint → Text) (k body : Text) : Text :=
  .scalar '"' :: (k.flatMap escape ++ .scalar '"' :: .scalar ':' :: .scalar ' ' :: body)

theorem quote_append (escape : CodePoint → Text) (k body : Text) :
    quote escape k ++ (.scalar ':' :: .scalar ' ' :: body) = memberText escape k body := by
  simp [quote, memberText]

theorem memberText_append (escape : CodePoint → Text) (k body rest : Text) :
    memberText escape k body ++ rest = memberText escape k (body ++ rest) := by
  simp [memberText]

theorem skip_memberText (escape : CodePoint → Text) (k body : Text) :
    skip (memberText escape k body) = memberText escape k body :=
  skip_cons (by decide) _

theorem head_memberText (escape : CodePoint → Text) (k body : Text) :
    ∀ c ∈ (memberText escape k body).head?, c ≠ .scalar '\x7d' := by
  intro c head
  obtain rfl := Option.some.inj head
  decide

/-- The name of a member ends at its colon. -/
theorem memberName_memberText {escape : CodePoint → Text} (undone : IsUndone escape)
    (k body : Text) :
    ∃ h, memberName (memberText escape k body) = .ok (k, ⟨.scalar ' ' :: body, h⟩) := by
  have colon : skip (.scalar ':' :: .scalar ' ' :: body) = .scalar ':' :: .scalar ' ' :: body :=
    skip_cons (by decide) _
  refine ⟨by simp only [List.length_cons, List.length_append]; omega, ?_⟩
  rw [memberName]
  split
  · next error => exact absurd (error.symm.trans (string_quote undone ..)) (by simp)
  · next key r₁ name =>
    have same := name.symm.trans (string_quote undone ..)
    simp only [Except.ok.injEq, Prod.mk.injEq, List.reverse_nil, List.nil_append] at same
    obtain ⟨rfl, rfl⟩ := same
    split
    · next heq =>
      obtain ⟨-, rfl⟩ := List.cons.inj (colon.symm.trans heq)
      rfl
    · next other => exact absurd colon (other _)

section Members

variable {escape : CodePoint → Text} (undone : IsUndone escape) {inner : Inner} {n : Nat}
  {k body r t : Text} {v : Json} (done : Members) (fits : (memberText escape k body).length < n)
  (solid : skip body = body) (shorter : r.length < body.length)
  (read : inner body = .ok (v, ⟨r, shorter⟩))

include solid read

theorem read_behind_colon :
    ∃ h, inner (skip (.scalar ' ' :: body)) = .ok (v, ⟨r, h⟩) := by
  have blank : skip (.scalar ' ' :: body) = body := solid
  rw [blank]
  exact ⟨shorter, read⟩

include undone

theorem members_last (close : skip r = .scalar '\x7d' :: t) :
    ∃ h, members inner n done (memberText escape k body) fits
      = .ok (Entries.put k v done, ⟨t, h⟩) := by
  obtain ⟨shorter', read'⟩ := read_behind_colon solid shorter read
  obtain ⟨fewer, name⟩ := memberName_memberText undone k body
  have length := skip_length_le r
  have fits' := fits
  rw [close, List.length_cons] at length
  simp only [memberText, List.length_cons, List.length_append] at fits'
  refine ⟨by omega, ?_⟩
  rw [members]
  simp only [name, read']
  split
  · next heq =>
    obtain ⟨-, rfl⟩ := List.cons.inj (close.symm.trans heq)
    rfl
  · next heq => exact absurd (close.symm.trans heq) (by simp)
  · next other _ => exact absurd close (other _)

theorem members_more {u : Text} (comma : skip r = .scalar ',' :: t) (next : skip t = u) :
    ∃ h, members inner n done (memberText escape k body) fits
      = members inner n (Entries.put k v done) u h := by
  subst next
  obtain ⟨shorter', read'⟩ := read_behind_colon solid shorter read
  obtain ⟨fewer, name⟩ := memberName_memberText undone k body
  have length := skip_length_le r
  have length' := skip_length_le t
  have fits' := fits
  rw [comma, List.length_cons] at length
  simp only [memberText, List.length_cons, List.length_append] at fits'
  refine ⟨by omega, ?_⟩
  rw [members]
  simp only [name, read']
  split
  · next heq => exact absurd (comma.symm.trans heq) (by simp)
  · next heq =>
    obtain ⟨-, rfl⟩ := List.cons.inj (comma.symm.trans heq)
    rfl
  · next _ other => exact absurd comma (other _)

end Members

section Opening

variable (inner : Inner) {r u : Text}

theorem valueWith_arr_close (close : skip r = .scalar ']' :: u) :
    ∃ h, valueWith (some inner) (.scalar '[' :: r) = .ok (arr [], ⟨u, h⟩) := by
  have length := skip_length_le r
  rw [close, List.length_cons] at length
  refine ⟨by rw [List.length_cons]; omega, ?_⟩
  rw [valueWith.eq_3]
  split
  · next heq =>
    obtain ⟨-, rfl⟩ := List.cons.inj (close.symm.trans heq)
    rfl
  · next other => exact absurd close (other u)

theorem valueWith_arr_items (more : ∀ u, skip r ≠ .scalar ']' :: u) :
    ∃ fits, valueWith (some inner) (.scalar '[' :: r) =
      (items inner (r.length + 1) [] (skip r) fits).map fun a => (arr a.1, a.2) := by
  refine ⟨Nat.lt_succ_of_le (skip_length_le r), ?_⟩
  rw [valueWith.eq_3]
  split
  · next u heq => exact absurd heq (more u)
  · rcases items inner (r.length + 1) [] (skip r) _ with _ | ⟨vs, rest⟩ <;> rfl

theorem valueWith_obj_close (close : skip r = .scalar '\x7d' :: u) :
    ∃ h, valueWith (some inner) (.scalar '\x7b' :: r) = .ok (obj [], ⟨u, h⟩) := by
  have length := skip_length_le r
  rw [close, List.length_cons] at length
  refine ⟨by rw [List.length_cons]; omega, ?_⟩
  rw [valueWith.eq_5]
  split
  · next heq =>
    obtain ⟨-, rfl⟩ := List.cons.inj (close.symm.trans heq)
    rfl
  · next other => exact absurd close (other u)

theorem valueWith_obj_members (more : ∀ u, skip r ≠ .scalar '\x7d' :: u) :
    ∃ fits, valueWith (some inner) (.scalar '\x7b' :: r) =
      (members inner (r.length + 1) [] (skip r) fits).map fun a => (obj a.1, a.2) := by
  refine ⟨Nat.lt_succ_of_le (skip_length_le r), ?_⟩
  rw [valueWith.eq_5]
  split
  · next u heq => exact absurd heq (more u)
  · rcases members inner (r.length + 1) [] (skip r) _ with _ | ⟨ms, rest⟩ <;> rfl

end Opening

section Opened

variable (inner : Inner) {blank t : Text} (blanks : ∀ c ∈ blank, isGap c = true)
  (solid : skip t = t)

include blanks solid

/-- What the items come to, the array comes to. -/
theorem valueWith_arr (open' : ∀ c ∈ t.head?, c ≠ .scalar ']') :
    ∃ fits, valueWith (some inner) (.scalar '[' :: (blank ++ t)) =
      (items inner ((blank ++ t).length + 1) [] t fits).map fun a => (arr a.1, a.2) := by
  have start : skip (blank ++ t) = t := by rw [skip_append blanks, solid]
  have more : ∀ u, skip (blank ++ t) ≠ .scalar ']' :: u := by
    rw [start]
    rintro u rfl
    exact open' _ rfl rfl
  obtain ⟨fits, opened⟩ := valueWith_arr_items inner more
  simp only [start] at opened
  exact ⟨_, opened⟩

/-- What the members come to, the object comes to. -/
theorem valueWith_obj (open' : ∀ c ∈ t.head?, c ≠ .scalar '\x7d') :
    ∃ fits, valueWith (some inner) (.scalar '\x7b' :: (blank ++ t)) =
      (members inner ((blank ++ t).length + 1) [] t fits).map fun a => (obj a.1, a.2) := by
  have start : skip (blank ++ t) = t := by rw [skip_append blanks, solid]
  have more : ∀ u, skip (blank ++ t) ≠ .scalar '\x7d' :: u := by
    rw [start]
    rintro u rfl
    exact open' _ rfl rfl
  obtain ⟨fits, opened⟩ := valueWith_obj_members inner more
  simp only [start] at opened
  exact ⟨_, opened⟩

end Opened

theorem valueWith_str {escape : CodePoint → Text} (undone : IsUndone escape)
    (inner : Option Inner) (t rest : Text) :
    ∃ h, valueWith inner (quote escape t ++ rest) = .ok (str t, ⟨rest, h⟩) := by
  have text : quote escape t ++ rest
      = .scalar '"' :: (t.flatMap escape ++ .scalar '"' :: rest) := by
    simp [quote]
  rw [text]
  refine ⟨by simp; omega, ?_⟩
  rw [valueWith]
  split
  · next error => exact absurd (error.symm.trans (string_quote undone ..)) (by simp)
  · next ok =>
    have same := ok.symm.trans (string_quote undone ..)
    simp only [Except.ok.injEq, Prod.mk.injEq, List.reverse_nil, List.nil_append] at same
    obtain ⟨rfl, rfl⟩ := same
    rfl

/-! ## Reading back -/

/-- No value starts like the end of an array. -/
theorem head_append_print (l : Layout) (level : Nat) (v : Json) (rest : Text) :
    ∀ c ∈ (print l level v ++ rest).head?, c ≠ .scalar ']' := by
  obtain ⟨d, t, text, starts⟩ := head_print l level v
  rw [text]
  rintro c head rfl
  obtain rfl := Option.some.inj head
  exact absurd starts (by decide)

theorem atom?_word {word : Text} {v : Json} (listed : (word, v) ∈ words) (rest : Text) :
    atom? (word ++ rest) = some (.ok v, rest) := by
  simp only [words, List.mem_cons, Prod.mk.injEq, List.not_mem_nil, or_false] at listed
  rcases listed with ⟨rfl, rfl⟩ | ⟨rfl, rfl⟩ | ⟨rfl, rfl⟩ | ⟨rfl, rfl⟩ | ⟨rfl, rfl⟩ | ⟨rfl, rfl⟩ <;>
    simp [atom?, words, Text.ofString, List.isPrefixOf]

theorem valueWith_plain {inner : Option Inner} {t rest : Text} {v : Json}
    (read : atom? (t ++ rest) = some (.ok v, rest)) (nonempty : t ≠ [])
    (atomic : ∀ c ∈ t, isAtomic c = true) :
    ∃ h, valueWith inner (t ++ rest) = .ok (v, ⟨rest, h⟩) := by
  apply valueWith_atom read
  intro c member
  rw [List.head?_append_of_ne_nil _ nonempty] at member
  exact atomic c (List.mem_of_mem_head? member)

theorem comma_printItems (l : Layout) (level : Nat) (v : Json) (vs : List Json) (rest : Text) :
    skip (printItems l level (v :: vs) ++ rest) = .scalar ',' :: (l.gap (level + 1)
      ++ (print l (level + 1) v ++ (printItems l level vs ++ rest))) := by
  rw [printItems_cons, List.cons_append, skip_cons (by decide), List.append_assoc,
    List.append_assoc]

theorem comma_printMembers (l : Layout) (level : Nat) (k : Text) (v : Json) (ms : Members)
    (rest : Text) : skip (printMembers l level ((k, v) :: ms) ++ rest)
      = .scalar ',' :: (l.gap (level + 1) ++ memberText l.escape k (print l (level + 1) v
        ++ (printMembers l level ms ++ rest))) := by
  rw [printMembers_cons, List.cons_append, skip_cons (by decide), List.append_assoc, quote_append,
    memberText_append, List.append_assoc]

/-- What the values inside of a container are read with, which is absent where none may open. -/
def innerAt : (depth : Nat) → Option Inner
  | 0 => none
  | depth + 1 => some (value depth)

theorem value_eq_valueWith (depth : Nat) : value depth = valueWith (innerAt depth) := by
  cases depth <;> rw [value, innerAt]

section

variable {l : Layout} (readable : l.IsReadable)

include readable

mutual

/-- What is printed for a value reads back as the value with every key once. -/
theorem value_print (level depth : Nat) (v : Json) (rest : Text)
    (writable : v.leaves.all hasFewDigits = true) (shallow : v.nesting ≤ depth)
    (closed : IsClosed rest) :
    ∃ h, value depth (print l level v ++ rest) = .ok (v.merged, ⟨rest, h⟩) := by
  cases v with
  | null =>
    rw [value_eq_valueWith, print, merged_of_isProper rfl]
    exact valueWith_plain (atom?_word (by simp [words]) rest) (by decide) (by decide)
  | bool b =>
    rw [value_eq_valueWith, print, merged_of_isProper rfl]
    cases b <;> exact valueWith_plain (atom?_word (by simp [words]) rest) (by decide) (by decide)
  | int n =>
    have few : (int n).hasFewDigits = true := by simpa [leaves] using writable
    rw [value_eq_valueWith, print]
    exact valueWith_plain (atom?_ofInt few closed) (ofInt_ne_nil n) (isAtomic_ofInt n)
  | float x =>
    rw [value_eq_valueWith, print]
    exact valueWith_plain (atom?_floatText x closed) (floatText_ne_nil x) (isAtomic_floatText x)
  | str t =>
    rw [value_eq_valueWith, print]
    exact valueWith_str readable.undone _ t rest
  | arr vs =>
    -- The reader has one level less for what is inside, and so has the value.
    obtain ⟨depth, rfl⟩ := Nat.exists_eq_succ_of_ne_zero (Nat.ne_zero_of_lt shallow)
    rw [value]
    cases vs with
    | nil =>
      rw [print_arr_nil]
      exact valueWith_arr_close (value depth) (skip_cons (by decide) rest)
    | cons v vs =>
      simp only [leaves, leavesItems, List.all_append, Bool.and_eq_true] at writable
      simp only [nesting, nestingItems] at shallow
      rw [print_arr_cons, List.cons_append, List.append_assoc, List.append_assoc]
      obtain ⟨fits, opened⟩ := valueWith_arr (value depth) (readable.edge (level + 1))
        (skip_print l (level + 1) v (printItems l level vs ++ rest))
        (head_append_print l (level + 1) v (printItems l level vs ++ rest))
      have first := value_print (level + 1) depth v (printItems l level vs ++ rest) writable.1
        (by omega) (isClosed_printItems readable level vs rest)
      obtain ⟨shorter, read⟩ :=
        items_print level depth v.merged vs rest [] writable.2 (by omega) fits first
      exact ⟨shorter, by rw [opened, read]; rfl⟩
  | obj ms =>
    obtain ⟨depth, rfl⟩ := Nat.exists_eq_succ_of_ne_zero (Nat.ne_zero_of_lt shallow)
    rw [value]
    cases ms with
    | nil =>
      rw [print_obj_nil]
      exact valueWith_obj_close (value depth) (skip_cons (by decide) rest)
    | cons m ms =>
      obtain ⟨k, v⟩ := m
      simp only [leaves, leavesMembers, List.all_append, Bool.and_eq_true] at writable
      simp only [nesting, nestingMembers] at shallow
      rw [print_obj_cons, List.cons_append, List.append_assoc, quote_append, memberText_append,
        List.append_assoc]
      obtain ⟨fits, opened⟩ := valueWith_obj (value depth) (readable.edge (level + 1))
        (skip_memberText l.escape k _) (head_memberText l.escape k _)
      have first := value_print (level + 1) depth v (printMembers l level ms ++ rest) writable.1
        (by omega) (isClosed_printMembers readable level ms rest)
      obtain ⟨shorter, read⟩ := members_print level depth k v.merged ms rest [] writable.2 (by omega)
        fits (skip_print ..) first
      exact ⟨shorter, by rw [opened, read]; rfl⟩

theorem items_print (level depth : Nat) (v : Json) (vs : List Json) (rest : Text) {s : Text}
    (done : List Json) (writable : (leavesItems vs).all hasFewDigits = true)
    (shallow : nestingItems vs ≤ depth) {n : Nat} (fits : s.length < n)
    (read : ∃ h, value depth s = .ok (v, ⟨printItems l level vs ++ rest, h⟩)) :
    ∃ h, items (value depth) n done s fits
      = .ok (done.reverse ++ v :: mergedItems vs, ⟨rest, h⟩) := by
  obtain ⟨shorter, read⟩ := read
  cases vs with
  | nil =>
    apply items_last done fits shorter read
    rw [printItems_nil, List.append_assoc, skip_append (readable.edge level)]
    exact skip_cons (by decide) _
  | cons w ws =>
    simp only [leavesItems, List.all_append, Bool.and_eq_true] at writable
    simp only [nestingItems] at shallow
    obtain ⟨fits', step⟩ := items_more done fits shorter read (comma_printItems l level w ws rest)
      ((skip_append (readable.gap _) _).trans (skip_print ..))
    have next := value_print (level + 1) depth w (printItems l level ws ++ rest) writable.1
      (by omega) (isClosed_printItems readable level ws rest)
    have last := items_print level depth w.merged ws rest (v :: done) writable.2 (by omega)
      fits' next
    rw [step]
    simpa [mergedItems] using last

theorem members_print (level depth : Nat) (k : Text) (v : Json) (ms : Members) (rest : Text)
    {body : Text} (done : Members) (writable : (leavesMembers ms).all hasFewDigits = true)
    (shallow : nestingMembers ms ≤ depth) {n : Nat}
    (fits : (memberText l.escape k body).length < n) (solid : skip body = body)
    (read : ∃ h, value depth body = .ok (v, ⟨printMembers l level ms ++ rest, h⟩)) :
    ∃ h, members (value depth) n done (memberText l.escape k body) fits
      = .ok (Entries.putAll done ((k, v) :: mergedMembers ms), ⟨rest, h⟩) := by
  obtain ⟨shorter, read⟩ := read
  cases ms with
  | nil =>
    apply members_last readable.undone done fits solid shorter read
    rw [printMembers_nil, List.append_assoc, skip_append (readable.edge level)]
    exact skip_cons (by decide) _
  | cons m ms =>
    obtain ⟨k', w⟩ := m
    simp only [leavesMembers, List.all_append, Bool.and_eq_true] at writable
    simp only [nestingMembers] at shallow
    obtain ⟨fits', step⟩ := members_more readable.undone done fits solid shorter read
      (comma_printMembers l level k' w ms rest)
      ((skip_append (readable.gap _) _).trans (skip_memberText ..))
    have next := value_print (level + 1) depth w (printMembers l level ms ++ rest) writable.1
      (by omega) (isClosed_printMembers readable level ms rest)
    have last := members_print level depth k' w.merged ms rest (Entries.put k v done) writable.2
      (by omega) fits' (skip_print ..) next
    rw [step]
    exact last

end

end

theorem isReadable_indented : Layout.indented.IsReadable := by
  have blanks : ∀ level, ∀ c ∈ newLine level, isGap c = true := by
    intro level c member
    rcases List.mem_cons.mp member with rfl | member
    · decide
    · rw [List.eq_of_mem_replicate member]
      decide
  exact ⟨isUndone_escapeBasic, blanks, blanks⟩

theorem isReadable_oneLine : Layout.oneLine.IsReadable :=
  ⟨isUndone_escapeBasic, fun _ => by simp [Layout.oneLine], fun _ =>
    (by decide : ∀ c ∈ (" " : Text), isGap c = true)⟩

/-- A printed value does not start like a byte order mark. -/
theorem print_append_ne_mark (l : Layout) (v : Json) (rest tail : Text) :
    print l 0 v ++ rest ≠ .scalar '\uFEFF' :: tail := by
  obtain ⟨c, t, text, starts⟩ := head_print l 0 v
  rw [text, List.cons_append]
  intro mark
  obtain rfl := (List.cons.inj mark).1
  exact absurd starts (by decide)

theorem isClosed_of_blanks {blank : Text} (blanks : ∀ c ∈ blank, isGap c = true) :
    IsClosed blank := by
  cases blank with
  | nil => exact isClosed_nil
  | cons c blank => exact isClosed_cons (isAtomic_of_isGap (blanks c List.mem_cons_self))

theorem skip_blanks {blank : Text} (blanks : ∀ c ∈ blank, isGap c = true) : skip blank = [] := by
  have front := skip_append blanks []
  rwa [List.append_nil] at front

/-- A printed value reads back as the value with every key once, also with blanks behind it. -/
theorem read_print_merged {room : Nat} {l : Layout} (readable : l.IsReadable) {v : Json}
    (writable : v.isWritable = true) (shallow : v.nesting ≤ room) {blank : Text}
    (blanks : ∀ c ∈ blank, isGap c = true) : read room (print l 0 v ++ blank) = .ok v.merged := by
  have back : ∃ h, value room (skip (print l 0 v ++ blank)) = .ok (v.merged, ⟨blank, h⟩) := by
    rw [skip_print]
    exact value_print readable 0 room v blank writable shallow (isClosed_of_blanks blanks)
  obtain ⟨shorter, back⟩ := back
  have document : document room (print l 0 v ++ blank) = .ok v.merged := by
    rw [document.eq_2 _ _ (print_append_ne_mark l v blank)]
    simp only [back, skip_blanks blanks]
  rw [read, document]

/-- A printed value reads back, also with blanks behind it. -/
theorem read_print {room : Nat} {l : Layout} (readable : l.IsReadable) {v : Json}
    (proper : v.isProper = true) (writable : v.isWritable = true) (shallow : v.nesting ≤ room)
    {blank : Text} (blanks : ∀ c ∈ blank, isGap c = true) :
    read room (print l 0 v ++ blank) = .ok v := by
  have back := read_print_merged readable writable shallow blanks
  rwa [merged_of_isProper proper] at back

/-- A document on lines of its own reads back. -/
theorem read_pretty {room : Nat} {v : Json} (proper : v.isProper = true)
    (writable : v.isWritable = true) (shallow : v.levels ≤ room) : read room (pretty v) = .ok v := by
  have back := read_print isReadable_indented proper writable
    ((nesting_le_levels v).trans shallow) (List.forall_mem_nil _)
  rwa [List.append_nil] at back

theorem control_escapeBasic (c : CodePoint) : ∀ d ∈ escapeBasic c, ¬d.val < 0x20 := by
  rcases escapeBasic_cases c with ⟨d, e, rfl, escaped, -, simple⟩ | ⟨control, escaped⟩ |
    ⟨-, -, plain, escaped⟩
  · rw [escaped, List.forall_mem_cons, List.forall_mem_singleton]
    refine ⟨by decide, ?_⟩
    unfold simpleEscape? at simple
    split at simple <;> first | decide | exact absurd simple (by simp)
  · have digits : ∀ n < 0x20, ∀ d ∈ ("\\u" ++ Text.hex 4 n : Text), ¬d.val < 0x20 := by decide
    rw [escaped]
    exact digits c.val control
  · rw [escaped, List.forall_mem_singleton]
    exact plain

theorem control_of_isAtomic {c : CodePoint} (atomic : isAtomic c = true) : ¬c.val < 0x20 := by
  have controls : ∀ n < 0x20, isAtomic (unitCodePoint n) = false := by decide
  intro control
  have no := controls c.val control
  rw [unitCodePoint_val, atomic] at no
  exact absurd no (by decide)

/-- On one line there are no controls. -/
theorem within_oneLine : Layout.oneLine.Within fun c => ¬c.val < 0x20 :=
  ⟨fun _ => control_of_isAtomic, by decide, control_escapeBasic, fun _ => by simp [Layout.oneLine],
    fun _ => (by decide : ∀ c ∈ (" " : Text), ¬c.val < 0x20)⟩

theorem within_indented {p : CodePoint → Prop} (feed : p (.scalar '\n'))
    (other : ∀ c : CodePoint, ¬c.val < 0x20 → p c) : Layout.indented.Within p := by
  have newLine : ∀ level, ∀ c ∈ newLine level, p c := by
    intro level
    refine List.forall_mem_cons.mpr ⟨feed, fun c member => ?_⟩
    rw [List.eq_of_mem_replicate member]
    exact other _ (by decide)
  constructor
  · exact fun c atomic => other c (control_of_isAtomic atomic)
  · exact fun c member => other c (by revert c; decide)
  · exact fun c d member => other d (control_escapeBasic c d member)
  · exact newLine
  · exact newLine

/-! ## What is read -/

theorem isProperItems_eq (vs : List Json) : isProperItems vs = vs.all isProper := by
  induction vs with
  | nil => rfl
  | cons v vs ih => simp [isProperItems, ih]

theorem isProperMembers_eq (ms : Members) : isProperMembers ms = ms.all fun m => m.2.isProper := by
  induction ms with
  | nil => rfl
  | cons m ms ih => simp [isProperMembers, ih]

/-- Whether all values that are read and are no containers have a property. -/
structure HoldsOfLeaves (R : Json → Prop) : Prop where
  null : R null
  bool : ∀ b, R (bool b)
  int : ∀ n, n.natAbs < 10 ^ digitLimit → R (int n)
  float : ∀ x, R (float x)
  str : ∀ t, R (str t)

/-- Whether a whole that is read has one property if its parts have another one. -/
structure Passes (Q R : Json → Prop) : Prop where
  leaves : HoldsOfLeaves R
  arr : ∀ {vs}, (∀ v ∈ vs, Q v) → R (arr vs)
  obj : ∀ {ms}, (Entries.keys ms).Nodup → (∀ m ∈ ms, Q m.2) → R (obj ms)

/-- Whether a property of values goes from the parts that are read to the whole. -/
abbrev IsHereditary (Q : Json → Prop) : Prop := Passes Q Q

/-- Whether an inner reader gives only values with a property. -/
def Inner.Gives (inner : Inner) (Q : Json → Prop) : Prop :=
  ∀ s v rest, inner s = .ok (v, rest) → Q v

variable {Q R : Json → Prop}

theorem holds_of_unsigned? (leaves : HoldsOfLeaves R) {negative : Bool} {s rest : Text}
    {v : Json}
    (read : unsigned? negative s = some (.ok v, rest)) : R v := by
  unfold unsigned? at read
  split at read
  · exact absurd read (by simp)
  · next whole r part =>
    dsimp only at read
    split at read
    · split at read
      · exact absurd read (by simp)
      · next few =>
        obtain ⟨same, -⟩ := Prod.mk.inj (Option.some.inj read)
        rw [← Except.ok.inj same]
        apply leaves.int
        have digits := digitsValue_lt (wholePart?_eq_some part).2
        have bound := digits.trans_le (Nat.pow_le_pow_right (by decide) (Nat.le_of_not_lt few))
        cases negative <;> simpa using bound
    · obtain ⟨same, -⟩ := Prod.mk.inj (Option.some.inj read)
      rw [← Except.ok.inj same]
      exact leaves.float _

theorem holds_of_atom? (leaves : HoldsOfLeaves R) {s rest : Text} {v : Json}
    (read : atom? s = some (.ok v, rest)) : R v := by
  unfold atom? at read
  split at read
  · next word w found =>
    obtain ⟨same, -⟩ := Prod.mk.inj (Option.some.inj read)
    have listed := List.mem_of_find?_eq_some found
    rw [← Except.ok.inj same]
    simp only [words, List.mem_cons, Prod.mk.injEq, List.not_mem_nil, or_false] at listed
    rcases listed with h | h | h | h | h | h <;> rw [h.2]
    · exact leaves.null
    · exact leaves.bool _
    · exact leaves.bool _
    · exact leaves.float _
    · exact leaves.float _
    · exact leaves.float _
  · split at read
    · exact holds_of_unsigned? leaves read
    · exact holds_of_unsigned? leaves read

theorem forall_of_items {inner : Inner} (gives : inner.Gives Q) {n : Nat} {done vs : List Json}
    {s : Text} {fits : s.length < n} {rest : Shorter n} (before : ∀ v ∈ done, Q v)
    (read : items inner n done s fits = .ok (vs, rest)) : ∀ v ∈ vs, Q v := by
  fun_induction items inner n done s fits with
  | case1 => exact absurd read (by simp)
  | case2 done s fits v r shorter ok t close =>
    obtain ⟨rfl, -⟩ := Prod.mk.inj (Except.ok.inj read)
    simp only [List.mem_reverse]
    exact List.forall_mem_cons.mpr ⟨gives _ _ _ ok, before⟩
  | case3 done s fits v r shorter ok t comma less ih =>
    exact ih (List.forall_mem_cons.mpr ⟨gives _ _ _ ok, before⟩) read
  | case4 => exact absurd read (by simp)

theorem forall_of_members {inner : Inner} (gives : inner.Gives Q) {n : Nat} {done ms : Members}
    {s : Text} {fits : s.length < n} {rest : Shorter n}
    (before : (Entries.keys done).Nodup ∧ ∀ m ∈ done, Q m.2)
    (read : members inner n done s fits = .ok (ms, rest)) :
    (Entries.keys ms).Nodup ∧ ∀ m ∈ ms, Q m.2 := by
  have put : ∀ {key v} {done : Members}, (Entries.keys done).Nodup ∧ (∀ m ∈ done, Q m.2) → Q v →
      (Entries.keys (Entries.put key v done)).Nodup ∧ ∀ m ∈ Entries.put key v done, Q m.2 := by
    intro key v done before value
    refine ⟨Entries.nodup_keys_put before.1, fun m member => ?_⟩
    rcases Entries.mem_put member with rfl | member
    · exact value
    · exact before.2 m member
  fun_induction members inner n done s fits with
  | case1 => exact absurd read (by simp)
  | case2 => exact absurd read (by simp)
  | case3 done s fits key r₁ h₁ name v r₂ h₂ ok less t close =>
    obtain ⟨rfl, -⟩ := Prod.mk.inj (Except.ok.inj read)
    exact put before (gives _ _ _ ok)
  | case4 done s fits key r₁ h₁ name v r₂ h₂ ok less t comma _ ih =>
    exact ih (put before (gives _ _ _ ok)) read
  | case5 => exact absurd read (by simp)

theorem holds_of_valueWith (passes : Passes Q R) {inner : Option Inner}
    (gives : ∀ i ∈ inner, i.Gives Q) {s : Text} {v : Json} {rest : Shorter s.length}
    (read : valueWith inner s = .ok (v, rest)) : R v := by
  unfold valueWith at read
  split at read
  · split at read
    · exact absurd read (by simp)
    · obtain ⟨rfl, -⟩ := Prod.mk.inj (Except.ok.inj read)
      exact passes.leaves.str _
  · split at read
    · exact absurd read (by simp)
    · next i =>
      split at read
      · obtain ⟨rfl, -⟩ := Prod.mk.inj (Except.ok.inj read)
        exact passes.arr (by simp)
      · split at read
        · exact absurd read (by simp)
        · next items =>
          obtain ⟨rfl, -⟩ := Prod.mk.inj (Except.ok.inj read)
          exact passes.arr (forall_of_items (gives i rfl) (by simp) items)
  · split at read
    · exact absurd read (by simp)
    · next i =>
      split at read
      · obtain ⟨rfl, -⟩ := Prod.mk.inj (Except.ok.inj read)
        exact passes.obj List.nodup_nil (by simp)
      · split at read
        · exact absurd read (by simp)
        · next members =>
          obtain ⟨rfl, -⟩ := Prod.mk.inj (Except.ok.inj read)
          have none : (Entries.keys ([] : Members)).Nodup ∧ ∀ m ∈ ([] : Members), Q m.2 :=
            ⟨List.nodup_nil, by simp⟩
          obtain ⟨distinct, each⟩ := forall_of_members (gives i rfl) none members
          exact passes.obj distinct each
  · split at read
    · exact absurd read (by simp)
    · exact absurd read (by simp)
    · next atom =>
      obtain ⟨rfl, -⟩ := Prod.mk.inj (Except.ok.inj read)
      exact holds_of_atom? passes.leaves atom

theorem gives_value (hereditary : IsHereditary Q) (depth : Nat) : Inner.Gives (value depth) Q := by
  induction depth with
  | zero =>
    intro s v rest read
    rw [value] at read
    exact holds_of_valueWith hereditary (fun i member => absurd member (by simp)) read
  | succ depth ih =>
    intro s v rest read
    rw [value] at read
    refine holds_of_valueWith hereditary (fun i member => ?_) read
    rw [← Option.some.inj member]
    exact ih

/-- What holds of all values that may be read holds of a document. -/
theorem holds_of_gives {room : Nat} (gives : Inner.Gives (value room) Q) {t : Text} {v : Json}
    (ok : read room t = .ok v) : Q v := by
  have document : document room t = .ok v := by
    unfold read at ok
    split at ok
    · next heq => rw [heq, Except.ok.inj ok]
    · exact absurd ok (by simp)
    · exact absurd ok (by simp)
    · exact absurd ok (by simp)
  unfold Json.document at document
  split at document
  · exact absurd document (by simp)
  · split at document
    · exact absurd document (by simp)
    · next w rest value =>
      split at document
      · rw [← Except.ok.inj document]
        exact gives _ _ _ value
      · exact absurd document (by simp)

/-- What goes from the parts to the whole holds of all that is read. -/
theorem holds_of_read (hereditary : IsHereditary Q) {room : Nat} {t : Text} {v : Json}
    (ok : read room t = .ok v) : Q v :=
  holds_of_gives (gives_value hereditary room) ok

/-- No object in what is read has a key twice. -/
theorem isProper_of_read {room : Nat} {t : Text} {v : Json} (ok : read room t = .ok v) :
    v.isProper = true := by
  have hereditary : IsHereditary fun v => v.isProper = true := by
    refine ⟨⟨rfl, fun _ => rfl, fun _ _ => rfl, fun _ => rfl, fun _ => rfl⟩, fun {vs} items => ?_,
      fun {ms} distinct members => ?_⟩
    · rw [isProper, isProperItems_eq, List.all_eq_true]
      exact items
    · rw [isProper, Bool.and_eq_true, decide_eq_true_eq, isProperMembers_eq, List.all_eq_true]
      exact ⟨distinct, members⟩
  exact holds_of_read hereditary ok

end Json

end Grimoire
