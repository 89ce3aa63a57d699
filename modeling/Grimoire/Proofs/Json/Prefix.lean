import Grimoire.Proofs.Json.ReadBack

/-!
# Printed values are a prefix code

Where a text starts with a printed value, the text determines the value and what follows it
(`Json.print_prefix`): quoted texts end at their quote, containers at their bracket, and numbers and
words where no code point of a number or a word goes on. So nothing in a value can imitate the end
of it.
-/

namespace Grimoire.Json

/-! ## Numbers and words -/

/-- Whether a code point may occur in the text of an integer. -/
def isIntegral (c : CodePoint) : Bool := isDigit c || c = .scalar '-'

theorem isIntegral_ofInt (n : Int) : ∀ c ∈ Text.ofInt n, isIntegral c = true := by
  have digits : ∀ m : Nat, ∀ c ∈ Text.ofNat m, isIntegral c = true := fun m c member => by
    simp [isIntegral, Text.isDigit_of_mem_ofNat member]
  cases n with
  | ofNat n => exact digits n
  | negSucc n => exact List.forall_mem_cons.mpr ⟨by decide, digits (n + 1)⟩

theorem mark_of_powerText (lead : Int) : ∃ c ∈ powerText lead, isIntegral c = false := by
  unfold powerText
  refine ⟨.scalar 'e', List.mem_append_left _ ?_, by decide⟩
  split <;> decide

/-- A floating-point number has a point or a power of ten. -/
theorem mark_of_write (d : Decimal) : ∃ c ∈ numberFormat.write d, isIntegral c = false := by
  have point : ∀ front back : Text, ∃ c ∈ front ++ ("." ++ back), isIntegral c = false :=
    fun front back => ⟨.scalar '.', by simp [Text.ofString], by decide⟩
  simp only [NumberFormat.write, NumberFormat.positional, exponential_eq]
  split
  · split
    · exact ⟨.scalar '.', by simp [Text.ofString], by decide⟩
    · split
      · exact ⟨.scalar '.', by simp [Text.ofString, numberFormat], by decide⟩
      · exact ⟨.scalar '.', by simp [Text.ofString], by decide⟩
  · obtain ⟨c, member, mark⟩ := mark_of_powerText
      (d.exponent + (Text.ofNat d.digits).length - 1)
    exact ⟨c, List.mem_append_right _ member, mark⟩

theorem mark_of_floatText (x : Binary64) : ∃ c ∈ floatText x, isIntegral c = false := by
  cases x with
  | nan => decide
  | infinity negative => cases negative <;> decide
  | finite negative significand exponent h =>
    rw [floatText, finiteText]
    by_cases zero : significand = 0
    · rw [if_pos zero]
      exact ⟨.scalar '.', List.mem_append_right _ (by decide), by decide⟩
    · rw [if_neg zero]
      obtain ⟨c, member, mark⟩ := mark_of_write (Binary64.shortest significand exponent)
      exact ⟨c, List.mem_append_right _ member, mark⟩

/-- The text of a value that is no text and no container. -/
def atomText? : Json → Option Text
  | null => some "null"
  | bool b => some (if b then "true" else "false")
  | int n => some (Text.ofInt n)
  | float x => some (floatText x)
  | _ => none

theorem print_of_atomText? {v : Json} {t : Text} (atom : v.atomText? = some t) (l : Layout)
    (level : Nat) : print l level v = t := by
  cases v <;> simp_all [atomText?, print]

theorem isAtomic_atomText {v : Json} {t : Text} (atom : v.atomText? = some t) :
    ∀ c ∈ t, isAtomic c = true := by
  cases v with
  | null =>
    obtain rfl := Option.some.inj atom
    decide
  | bool b =>
    obtain rfl := Option.some.inj atom
    cases b <;> decide
  | int n =>
    obtain rfl := Option.some.inj atom
    exact isAtomic_ofInt n
  | float x =>
    obtain rfl := Option.some.inj atom
    exact isAtomic_floatText x
  | _ => exact absurd atom (by simp [atomText?])

/-- A word or a floating-point number is read as what it is, and is not the text of an integer. -/
theorem atom?_atomText {v : Json} {t : Text} (atom : v.atomText? = some t) :
    (∃ n, v = int n) ∨ atom? t = some (.ok v, []) ∧ ∃ c ∈ t, isIntegral c = false := by
  cases v with
  | null =>
    obtain rfl := Option.some.inj atom
    exact .inr ⟨by simp [atom?, words, Text.ofString, List.isPrefixOf], by decide⟩
  | bool b =>
    obtain rfl := Option.some.inj atom
    cases b <;>
      exact .inr ⟨by simp [atom?, words, Text.ofString, List.isPrefixOf], by decide⟩
  | int n => exact .inl ⟨n, rfl⟩
  | float x =>
    obtain rfl := Option.some.inj atom
    have read := atom?_floatText x isClosed_nil
    rw [List.append_nil] at read
    exact .inr ⟨read, mark_of_floatText x⟩
  | _ => exact absurd atom (by simp [atomText?])

/-- Numbers and words are told apart by their texts. -/
theorem atomText?_injective {v w : Json} {t : Text} (first : v.atomText? = some t)
    (second : w.atomText? = some t) : v = w := by
  have foreign : ∀ n : Int, ∀ c ∈ t, isIntegral c = false → Text.ofInt n ≠ t := by
    rintro n c member mark rfl
    exact absurd (isIntegral_ofInt n c member) (by simp [mark])
  rcases atom?_atomText first with ⟨m, rfl⟩ | ⟨read, c, member, mark⟩ <;>
    rcases atom?_atomText second with ⟨n, rfl⟩ | ⟨read', c', member', mark'⟩
  · rw [Text.ofInt_injective (Option.some.inj (first.trans second.symm))]
  · exact absurd (Option.some.inj first) (foreign m c' member' mark')
  · exact absurd (Option.some.inj second) (foreign n c member mark)
  · simpa using read.symm.trans read'

/-- What stands in front of a rest that closes it is determined by the whole. -/
theorem atomic_prefix {a b r s : Text} (atomic : ∀ c ∈ a, isAtomic c = true)
    (atomic' : ∀ c ∈ b, isAtomic c = true) (closed : IsClosed r) (closed' : IsClosed s)
    (h : a ++ r = b ++ s) : a = b ∧ r = s := by
  have run : ∀ {a r : Text}, (∀ c ∈ a, isAtomic c = true) → IsClosed r →
      (a ++ r).takeWhile isAtomic = a := by
    intro a r atomic closed
    rw [List.takeWhile_append_of_pos atomic]
    cases r with
    | nil => simp
    | cons c r => simp [closed c rfl]
  have same : a = b := by rw [← run atomic closed, h, run atomic' closed']
  subst same
  exact ⟨rfl, List.append_cancel_left h⟩

/-! ## Texts and containers -/

/-- A quoted text ends at its quote. -/
theorem quote_prefix {escape : CodePoint → Text} (undone : IsUndone escape) {t u r s : Text}
    (h : quote escape t ++ r = quote escape u ++ s) : t = u ∧ r = s := by
  have inside : t.flatMap escape ++ .scalar '"' :: r = u.flatMap escape ++ .scalar '"' :: s := by
    simpa [quote] using h
  have read := string_quote undone [] [] t r
  rw [inside, string_quote undone] at read
  simpa [eq_comm] using read

/-- The code point with which a text or a container starts. -/
def opening? : Json → Option CodePoint
  | str _ => some (.scalar '"')
  | arr _ => some (.scalar '[')
  | obj _ => some (.scalar '\x7b')
  | _ => none

theorem head_print_append (l : Layout) (level : Nat) (v : Json) (r : Text) :
    ∃ c t, print l level v ++ r = c :: t ∧
      (v.opening? = some c ∨ v.opening? = none ∧ isAtomic c = true) := by
  have atom : ∀ {v : Json} {t : Text}, v.atomText? = some t → t ≠ [] → v.opening? = none →
      ∃ c u, print l level v ++ r = c :: u ∧
        (v.opening? = some c ∨ v.opening? = none ∧ isAtomic c = true) := by
    intro v t text nonempty plain
    obtain ⟨c, u, rfl, atomic⟩ := isAtomic_of_head (isAtomic_atomText text) nonempty
    exact ⟨c, u ++ r, by rw [print_of_atomText? text, List.cons_append], .inr ⟨plain, atomic⟩⟩
  cases v with
  | null => exact atom rfl (by decide) rfl
  | bool b => exact atom rfl (by cases b <;> decide) rfl
  | int n => exact atom rfl (ofInt_ne_nil n) rfl
  | float x => exact atom rfl (floatText_ne_nil x) rfl
  | str t => exact ⟨_, _, by rw [print, quote, List.cons_append], .inl rfl⟩
  | arr vs =>
    cases vs with
    | nil => exact ⟨_, _, by rw [print_arr_nil, List.cons_append], .inl rfl⟩
    | cons v vs => exact ⟨_, _, by rw [print_arr_cons, List.cons_append], .inl rfl⟩
  | obj ms =>
    cases ms with
    | nil => exact ⟨_, _, by rw [print_obj_nil, List.cons_append], .inl rfl⟩
    | cons m ms => exact ⟨_, _, by rw [print_obj_cons, List.cons_append], .inl rfl⟩

theorem isAtomic_opening? {v : Json} {c : CodePoint} (opens : v.opening? = some c) :
    isAtomic c = false := by
  cases v with
  | str t =>
    obtain rfl := Option.some.inj opens
    decide
  | arr vs =>
    obtain rfl := Option.some.inj opens
    decide
  | obj ms =>
    obtain rfl := Option.some.inj opens
    decide
  | _ => exact absurd opens (by simp [opening?])

/-- Values of different kinds start differently. -/
theorem opening?_prefix {l : Layout} {level : Nat} {v w : Json} {r s : Text}
    (h : print l level v ++ r = print l level w ++ s) : v.opening? = w.opening? := by
  obtain ⟨c, t, text, kind⟩ := head_print_append l level v r
  obtain ⟨d, u, text', kind'⟩ := head_print_append l level w s
  obtain ⟨rfl, -⟩ := List.cons.inj (text.symm.trans (h.trans text'))
  rcases kind with opens | ⟨plain, atomic⟩ <;> rcases kind' with opens' | ⟨plain', atomic'⟩
  · exact opens.trans opens'.symm
  · exact absurd (isAtomic_opening? opens) (by simp [atomic'])
  · exact absurd (isAtomic_opening? opens') (by simp [atomic])
  · exact plain.trans plain'.symm

theorem atom_prefix {l : Layout} {level : Nat} {v w : Json} {t u r s : Text}
    (atom : v.atomText? = some t) (atom' : w.atomText? = some u) (closed : IsClosed r)
    (closed' : IsClosed s) (h : print l level v ++ r = print l level w ++ s) : v = w ∧ r = s := by
  rw [print_of_atomText? atom, print_of_atomText? atom'] at h
  obtain ⟨rfl, rest⟩ :=
    atomic_prefix (isAtomic_atomText atom) (isAtomic_atomText atom') closed closed' h
  exact ⟨atomText?_injective atom atom', rest⟩

theorem atomText?_of_opening? {v : Json} (plain : v.opening? = none) :
    ∃ t, v.atomText? = some t := by
  cases v <;> simp_all [opening?, atomText?]

section

variable {l : Layout} (readable : l.IsReadable)

include readable

/-- Behind the first bracket, an empty container looks different from one that is not empty. -/
theorem edge_ne_close (level : Nat) {c : CodePoint} (close : c = .scalar ']' ∨ c = .scalar '\x7d')
    {d : CodePoint} (starts : startsValue d = true) {r t : Text} :
    l.edge level ++ d :: t ≠ c :: r := by
  intro same
  cases edge : l.edge level with
  | nil =>
    rw [edge] at same
    obtain rfl := (List.cons.inj same).1
    rcases close with rfl | rfl <;> exact absurd starts (by decide)
  | cons e rest =>
    rw [edge] at same
    obtain rfl := (List.cons.inj same).1
    have blank := readable.edge level e (by rw [edge]; simp)
    rcases close with rfl | rfl <;> exact absurd blank (by decide)

/-- The end of a container looks different from a comma. -/
theorem edge_ne_comma (level : Nat) {c : CodePoint} (close : c = .scalar ']' ∨ c = .scalar '\x7d')
    {r t : Text} : l.edge level ++ c :: t ≠ .scalar ',' :: r := by
  intro same
  cases edge : l.edge level with
  | nil =>
    rw [edge] at same
    have first := (List.cons.inj same).1
    rcases close with rfl | rfl <;> exact absurd first (by decide)
  | cons e rest =>
    rw [edge] at same
    obtain rfl := (List.cons.inj same).1
    have blank : isGap (.scalar ',') = true := readable.edge level _ (by rw [edge]; simp)
    exact absurd blank (by decide)

theorem arr_nil_ne_cons (level : Nat) {w : Json} {ws : List Json} {r s : Text} :
    print l level (arr []) ++ r ≠ print l level (arr (w :: ws)) ++ s := by
  intro h
  obtain ⟨c, t, text, starts⟩ := head_print l (level + 1) w
  simp only [print_arr_nil, print_arr_cons, text, List.cons_append, List.append_assoc,
    List.cons.injEq, true_and] at h
  exact edge_ne_close readable (level + 1) (.inl rfl) starts h.symm

theorem obj_nil_ne_cons (level : Nat) {n : Text × Json} {ns : Members} {r s : Text} :
    print l level (obj []) ++ r ≠ print l level (obj (n :: ns)) ++ s := by
  intro h
  obtain ⟨k, v⟩ := n
  simp only [print_obj_nil, print_obj_cons, quote, List.cons_append, List.append_assoc,
    List.cons.injEq, true_and] at h
  exact edge_ne_close readable (level + 1) (.inr rfl) (by decide) h.symm

mutual

/-- Where a text starts with a printed value that a closed rest follows, both are determined. -/
theorem print_prefix (level : Nat) (v w : Json) {r s : Text} (closed : IsClosed r)
    (closed' : IsClosed s) (h : print l level v ++ r = print l level w ++ s) : v = w ∧ r = s := by
  -- The first code points agree, so only values of one kind are left to compare.
  have same := opening?_prefix h
  cases v with
  | str t =>
    cases w with
    | str u =>
      obtain ⟨rfl, rest⟩ := quote_prefix readable.undone (by simpa only [print] using h)
      exact ⟨rfl, rest⟩
    | _ => exact absurd same (by simp [opening?])
  | arr vs =>
    cases w with
    | arr ws =>
      cases vs with
      | nil =>
        cases ws with
        | nil => simpa [print_arr_nil] using h
        | cons w ws => exact absurd h (arr_nil_ne_cons readable level)
      | cons v vs =>
        cases ws with
        | nil => exact absurd h.symm (arr_nil_ne_cons readable level)
        | cons w ws =>
          simp only [print_arr_cons, List.cons_append, List.append_assoc, List.cons.injEq, true_and,
            List.append_cancel_left_eq] at h
          obtain ⟨rfl, items⟩ :=
            print_prefix (level + 1) v w (isClosed_printItems readable level vs r)
            (isClosed_printItems readable level ws s) h
          obtain ⟨rfl, rest⟩ := printItems_prefix level vs ws items
          exact ⟨rfl, rest⟩
    | _ => exact absurd same (by simp [opening?])
  | obj ms =>
    cases w with
    | obj ns =>
      cases ms with
      | nil =>
        cases ns with
        | nil => simpa [print_obj_nil] using h
        | cons n ns => exact absurd h (obj_nil_ne_cons readable level)
      | cons m ms =>
        obtain ⟨k, v⟩ := m
        cases ns with
        | nil => exact absurd h.symm (obj_nil_ne_cons readable level)
        | cons n ns =>
          obtain ⟨k', w⟩ := n
          -- The names first: they end at their quotes, and what follows them is the value.
          simp only [print_obj_cons, List.cons_append, List.append_assoc, List.cons.injEq, true_and,
            List.append_cancel_left_eq] at h
          obtain ⟨rfl, values⟩ := quote_prefix readable.undone h
          simp only [List.cons.injEq, true_and] at values
          obtain ⟨rfl, members⟩ := print_prefix (level + 1) v w
            (isClosed_printMembers readable level ms r)
            (isClosed_printMembers readable level ns s) values
          obtain ⟨rfl, rest⟩ := printMembers_prefix level ms ns members
          exact ⟨rfl, rest⟩
    | _ => exact absurd same (by simp [opening?])
  | _ =>
    obtain ⟨u, atom⟩ := atomText?_of_opening? same.symm
    exact atom_prefix rfl atom closed closed' h

theorem printItems_prefix (level : Nat) (vs ws : List Json) {r s : Text}
    (h : printItems l level vs ++ r = printItems l level ws ++ s) : vs = ws ∧ r = s := by
  cases vs with
  | nil =>
    cases ws with
    | nil => simpa [printItems_nil] using h
    | cons w ws =>
      simp only [printItems_nil, printItems_cons, List.cons_append, List.append_assoc] at h
      exact absurd h (edge_ne_comma readable level (.inl rfl))
  | cons v vs =>
    cases ws with
    | nil =>
      simp only [printItems_nil, printItems_cons, List.cons_append, List.append_assoc] at h
      exact absurd h.symm (edge_ne_comma readable level (.inl rfl))
    | cons w ws =>
      simp only [printItems_cons, List.cons_append, List.append_assoc, List.cons.injEq, true_and,
        List.append_cancel_left_eq] at h
      obtain ⟨rfl, items⟩ := print_prefix (level + 1) v w (isClosed_printItems readable level vs r)
        (isClosed_printItems readable level ws s) h
      obtain ⟨rfl, rest⟩ := printItems_prefix level vs ws items
      exact ⟨rfl, rest⟩

theorem printMembers_prefix (level : Nat) (ms ns : Members) {r s : Text}
    (h : printMembers l level ms ++ r = printMembers l level ns ++ s) : ms = ns ∧ r = s := by
  cases ms with
  | nil =>
    cases ns with
    | nil => simpa [printMembers_nil] using h
    | cons n ns =>
      obtain ⟨k, v⟩ := n
      simp only [printMembers_nil, printMembers_cons, List.cons_append, List.append_assoc] at h
      exact absurd h (edge_ne_comma readable level (.inr rfl))
  | cons m ms =>
    obtain ⟨k, v⟩ := m
    cases ns with
    | nil =>
      simp only [printMembers_nil, printMembers_cons, List.cons_append, List.append_assoc] at h
      exact absurd h.symm (edge_ne_comma readable level (.inr rfl))
    | cons n ns =>
      obtain ⟨k', w⟩ := n
      simp only [printMembers_cons, List.cons_append, List.append_assoc, List.cons.injEq, true_and,
        List.append_cancel_left_eq] at h
      obtain ⟨rfl, values⟩ := quote_prefix readable.undone h
      simp only [List.cons.injEq, true_and] at values
      obtain ⟨rfl, members⟩ := print_prefix (level + 1) v w
        (isClosed_printMembers readable level ms r)
        (isClosed_printMembers readable level ns s) values
      obtain ⟨rfl, rest⟩ := printMembers_prefix level ms ns members
      exact ⟨rfl, rest⟩

end

end

end Grimoire.Json
