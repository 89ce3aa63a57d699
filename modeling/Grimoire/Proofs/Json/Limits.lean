import Grimoire.Proofs.Json.ReadBack

/-!
# Where the reader gives up

Every part of the reader hands on an end of the text that it was given. So a text is given up as
nested too deep only if enough brackets open in it, and for a number with too many digits only if so
many digits stand in a row in it (`Json.isExcessive_of_read`). Brackets that open one behind the
other are given up as soon as there are too many of them (`Json.read_brackets`).
-/

namespace Grimoire.Json

/-- Whether a code point opens a container. -/
def isOpening (c : CodePoint) : Bool := c = .scalar '[' || c = .scalar '\x7b'

/-- How many code points of a text open a container, if each of them did. -/
def openings (s : Text) : Nat := s.countP isOpening

/-- Whether a given number of digits, more than a number may have, stand in a row in a text. -/
def HasRow (n : Nat) (s : Text) : Prop :=
  digitLimit < n ∧ ∃ digits, digits <:+: s ∧ digits.length = n ∧ ∀ c ∈ digits, isDigit c = true

/-- Whether a text with containers at most `depth` deep left to open has what the reader stops at.
-/
def Stop.IsDue (depth : Nat) (s : Text) : Stop → Prop
  | malformed _ _ => True
  | tooDeep _ => depth < openings s
  | tooManyDigits n => HasRow n s

namespace Stop

variable {stop : Stop} {depth : Nat} {s t : Text}

/-- What is due in an end of a text is due in the text. -/
theorem IsDue.mono (due : stop.IsDue depth s) (suffix : s <:+ t) : stop.IsDue depth t := by
  cases stop with
  | malformed => trivial
  | tooDeep => exact Nat.lt_of_lt_of_le due (suffix.sublist.countP_le)
  | tooManyDigits =>
    obtain ⟨tooMany, digits, infix', rest⟩ := due
    exact ⟨tooMany, digits, infix'.trans suffix.isInfix, rest⟩

/-- A bracket makes up for one level. -/
theorem IsDue.cons (due : stop.IsDue depth s) {c : CodePoint} (opens : isOpening c = true) :
    stop.IsDue (depth + 1) (c :: s) := by
  cases stop with
  | malformed => trivial
  | tooDeep =>
    rw [IsDue, openings, List.countP_cons_of_pos opens]
    exact Nat.succ_lt_succ due
  | tooManyDigits => exact due.mono (List.suffix_cons c s)

end Stop

/-! ## Texts and numbers -/

theorem suffix_skip (s : Text) : skip s <:+ s := List.dropWhile_suffix isGap

theorem suffix_of_skip {s t : Text} {c : CodePoint} (h : skip s = c :: t) : t <:+ s :=
  (List.suffix_cons c t).trans (h ▸ suffix_skip s)

theorem suffix_of_lowUnit? {s rest : Text} {low : Nat} (h : lowUnit? s = some (low, rest)) :
    rest <:+ s := by
  unfold lowUnit? at h
  split at h
  · next a b c d e r =>
    split at h
    · split at h
      · obtain ⟨-, rfl⟩ := Prod.mk.inj (Option.some.inj h)
        exact List.suffix_append [.scalar '\\', .scalar 'u', a, b, c, d] _
      · exact absurd h (by simp)
    · exact absurd h (by simp)
  · exact absurd h (by simp)

theorem suffix_of_string {start done s t rest : Text} (h : string start done s = .ok (t, rest)) :
    rest <:+ s := by
  fun_induction string start done s with
  | case2 done r =>
    obtain ⟨-, rfl⟩ := Prod.mk.inj (Except.ok.inj h)
    exact List.suffix_cons _ _
  | case5 done a b c d e r u hu high low r' hl ih =>
    refine ((ih h).trans (suffix_of_lowUnit? hl)).trans ?_
    exact List.suffix_append [.scalar '\\', .scalar 'u', a, b, c, d] _
  | case6 done a b c d e r u hu high hl ih =>
    exact (ih h).trans (List.suffix_append [.scalar '\\', .scalar 'u', a, b, c, d] _)
  | case7 done a b c d e r u hu single ih =>
    exact (ih h).trans (List.suffix_append [.scalar '\\', .scalar 'u', a, b, c, d] _)
  | case9 done c r hlong hletter e hescape ih =>
    exact (ih h).trans (List.suffix_append [.scalar '\\', c] _)
  | case12 done c r hquote hbackslash control ih => exact (ih h).trans (List.suffix_cons _ _)
  | _ => exact absurd h (by simp)

/-- A text is given up only for a fault in it. -/
theorem due_of_string {start done s : Text} {stop : Stop} (h : string start done s = .error stop)
    (depth : Nat) (t : Text) : stop.IsDue depth t := by
  fun_induction string start done s with
  | case2 => exact absurd h (by simp)
  | case5 done a b c d e r u hu high low r' hl ih => exact ih h
  | case6 done a b c d e r u hu high hl ih => exact ih h
  | case7 done a b c d e r u hu single ih => exact ih h
  | case9 done c r hlong hletter e hescape ih => exact ih h
  | case12 done c r hquote hbackslash control ih => exact ih h
  | _ =>
    obtain rfl := Except.error.inj h
    trivial

theorem suffix_fraction (s : Text) : (fraction s).2 <:+ s := by
  unfold fraction
  split
  · next c r =>
    split
    · exact (List.dropWhile_suffix isDigit).trans (List.suffix_cons _ _)
    · exact List.suffix_refl _
  · exact List.suffix_refl _

theorem suffix_sign (s : Text) : (sign s).2 <:+ s := by
  unfold sign
  split
  · exact List.suffix_cons _ _
  · exact List.suffix_cons _ _
  · exact List.suffix_refl _

theorem suffix_power (s : Text) : (power s).2 <:+ s := by
  unfold power
  split
  · next e r =>
    dsimp only
    split
    · exact ((List.dropWhile_suffix isDigit).trans (suffix_sign r)).trans (List.suffix_cons _ _)
    · exact List.suffix_refl _
  · exact List.suffix_refl _

/-- A number leaves an end of the text, and is given up only for its digits. -/
theorem limits_of_unsigned? {negative : Bool} {s rest : Text} {outcome : Except Stop Json}
    (h : unsigned? negative s = some (outcome, rest)) :
    rest <:+ s ∧ ∀ stop, outcome = .error stop → ∀ depth, stop.IsDue depth s := by
  unfold unsigned? at h
  split at h
  · exact absurd h (by simp)
  · next whole r part =>
    obtain ⟨rfl, digits⟩ := wholePart?_eq_some part
    have suffix : (power (fraction r).2).2 <:+ whole ++ r :=
      ((suffix_power _).trans (suffix_fraction r)).trans (List.suffix_append whole r)
    dsimp only at h
    split at h
    · split at h
      · next tooMany =>
        obtain ⟨rfl, rfl⟩ := Prod.mk.inj (Option.some.inj h)
        refine ⟨suffix, fun stop same depth => ?_⟩
        obtain rfl := Except.error.inj same
        exact ⟨tooMany, whole, List.infix_append [] whole r, rfl, digits⟩
      · obtain ⟨rfl, rfl⟩ := Prod.mk.inj (Option.some.inj h)
        exact ⟨suffix, fun stop same => absurd same (by simp)⟩
    · obtain ⟨rfl, rfl⟩ := Prod.mk.inj (Option.some.inj h)
      exact ⟨suffix, fun stop same => absurd same (by simp)⟩

theorem limits_of_atom? {s rest : Text} {outcome : Except Stop Json}
    (h : atom? s = some (outcome, rest)) :
    rest <:+ s ∧ ∀ stop, outcome = .error stop → ∀ depth, stop.IsDue depth s := by
  unfold atom? at h
  split at h
  · obtain ⟨rfl, rfl⟩ := Prod.mk.inj (Option.some.inj h)
    exact ⟨List.drop_suffix _ _, fun stop same => absurd same (by simp)⟩
  · split at h
    · next r _ =>
      obtain ⟨suffix, due⟩ := limits_of_unsigned? h
      exact ⟨suffix.trans (List.suffix_cons _ _),
        fun stop same depth => (due stop same depth).mono (List.suffix_cons _ _)⟩
    · exact limits_of_unsigned? h

/-! ## Containers -/

/-- Whether an inner reader hands on ends of its text, and stops only at what is due in it. -/
structure Inner.IsLimited (inner : Inner) (depth : Nat) : Prop where
  suffix : ∀ s v rest, inner s = .ok (v, rest) → rest.val <:+ s
  due : ∀ s stop, inner s = .error stop → stop.IsDue depth s

variable {inner : Inner} {depth : Nat}

theorem suffix_of_items (limited : inner.IsLimited depth) {n : Nat} {done vs : List Json} {s : Text}
    {fits : s.length < n} {rest : Shorter n} (read : items inner n done s fits = .ok (vs, rest)) :
    rest.val <:+ s := by
  fun_induction items inner n done s fits with
  | case1 => exact absurd read (by simp)
  | case2 done s fits v r shorter ok t close =>
    obtain ⟨-, rfl⟩ := Prod.mk.inj (Except.ok.inj read)
    exact (suffix_of_skip close).trans (limited.suffix _ _ _ ok)
  | case3 done s fits v r shorter ok t comma less ih =>
    have behind := (suffix_of_skip comma).trans (limited.suffix _ _ _ ok)
    exact ((ih read).trans (suffix_skip t)).trans behind
  | case4 => exact absurd read (by simp)

theorem due_of_items (limited : inner.IsLimited depth) {n : Nat} {done : List Json} {s : Text}
    {fits : s.length < n} {stop : Stop} (read : items inner n done s fits = .error stop) :
    stop.IsDue depth s := by
  fun_induction items inner n done s fits with
  | case1 done s fits stop' failed =>
    obtain rfl := Except.error.inj read
    exact limited.due _ _ failed
  | case2 => exact absurd read (by simp)
  | case3 done s fits v r shorter ok t comma less ih =>
    have behind := (suffix_of_skip comma).trans (limited.suffix _ _ _ ok)
    exact (ih read).mono ((suffix_skip t).trans behind)
  | case4 =>
    obtain rfl := Except.error.inj read
    trivial

theorem suffix_of_memberName {s key : Text} {rest : Shorter s.length}
    (h : memberName s = .ok (key, rest)) : rest.val <:+ s := by
  unfold memberName at h
  split at h
  · split at h
    · exact absurd h (by simp)
    · next key' r₁ name =>
      split at h
      · next r₂ colon =>
        obtain ⟨-, rfl⟩ := Prod.mk.inj (Except.ok.inj h)
        exact ((suffix_of_skip colon).trans (suffix_of_string name)).trans (List.suffix_cons _ _)
      · exact absurd h (by simp)
  · exact absurd h (by simp)

theorem due_of_memberName {s : Text} {stop : Stop} (h : memberName s = .error stop) :
    stop.IsDue depth s := by
  unfold memberName at h
  split at h
  · split at h
    · next failed =>
      obtain rfl := Except.error.inj h
      exact due_of_string failed depth _
    · split at h
      · exact absurd h (by simp)
      · obtain rfl := Except.error.inj h
        trivial
  · obtain rfl := Except.error.inj h
    trivial

theorem suffix_of_members (limited : inner.IsLimited depth) {n : Nat} {done ms : Members} {s : Text}
    {fits : s.length < n} {rest : Shorter n} (read : members inner n done s fits = .ok (ms, rest)) :
    rest.val <:+ s := by
  fun_induction members inner n done s fits with
  | case1 => exact absurd read (by simp)
  | case2 => exact absurd read (by simp)
  | case3 done s fits key r₁ h₁ name v r₂ h₂ ok less t close =>
    obtain ⟨-, rfl⟩ := Prod.mk.inj (Except.ok.inj read)
    have value := (limited.suffix _ _ _ ok).trans (suffix_skip r₁)
    exact ((suffix_of_skip close).trans value).trans (suffix_of_memberName name)
  | case4 done s fits key r₁ h₁ name v r₂ h₂ ok less t comma _ ih =>
    have value := (limited.suffix _ _ _ ok).trans (suffix_skip r₁)
    have behind := ((suffix_of_skip comma).trans value).trans (suffix_of_memberName name)
    exact ((ih read).trans (suffix_skip t)).trans behind
  | case5 => exact absurd read (by simp)

theorem due_of_members (limited : inner.IsLimited depth) {n : Nat} {done : Members} {s : Text}
    {fits : s.length < n} {stop : Stop} (read : members inner n done s fits = .error stop) :
    stop.IsDue depth s := by
  fun_induction members inner n done s fits with
  | case1 done s fits stop' failed =>
    obtain rfl := Except.error.inj read
    exact due_of_memberName failed
  | case2 done s fits key r₁ h₁ name stop' failed =>
    obtain rfl := Except.error.inj read
    exact (limited.due _ _ failed).mono ((suffix_skip r₁).trans (suffix_of_memberName name))
  | case3 => exact absurd read (by simp)
  | case4 done s fits key r₁ h₁ name v r₂ h₂ ok less t comma _ ih =>
    have value := (limited.suffix _ _ _ ok).trans (suffix_skip r₁)
    have behind := ((suffix_of_skip comma).trans value).trans (suffix_of_memberName name)
    exact (ih read).mono ((suffix_skip t).trans behind)
  | case5 =>
    obtain rfl := Except.error.inj read
    trivial

/-! ## Values and documents -/

/-- A value leaves an end of the text, as what it contains does. -/
theorem suffix_of_valueWith {inner : Option Inner} (limited : ∀ i ∈ inner, i.IsLimited depth)
    {s : Text} {v : Json} {rest : Shorter s.length} (read : valueWith inner s = .ok (v, rest)) :
    rest.val <:+ s := by
  unfold valueWith at read
  split at read
  · split at read
    · exact absurd read (by simp)
    · next text =>
      obtain ⟨-, rfl⟩ := Prod.mk.inj (Except.ok.inj read)
      exact (suffix_of_string text).trans (List.suffix_cons _ _)
  · split at read
    · exact absurd read (by simp)
    · next i =>
      split at read
      · next close =>
        obtain ⟨-, rfl⟩ := Prod.mk.inj (Except.ok.inj read)
        exact (suffix_of_skip close).trans (List.suffix_cons _ _)
      · split at read
        · exact absurd read (by simp)
        · next items =>
          obtain ⟨-, rfl⟩ := Prod.mk.inj (Except.ok.inj read)
          have behind := (suffix_of_items (limited i rfl) items).trans (suffix_skip _)
          exact behind.trans (List.suffix_cons _ _)
  · split at read
    · exact absurd read (by simp)
    · next i =>
      split at read
      · next close =>
        obtain ⟨-, rfl⟩ := Prod.mk.inj (Except.ok.inj read)
        exact (suffix_of_skip close).trans (List.suffix_cons _ _)
      · split at read
        · exact absurd read (by simp)
        · next members =>
          obtain ⟨-, rfl⟩ := Prod.mk.inj (Except.ok.inj read)
          have behind := (suffix_of_members (limited i rfl) members).trans (suffix_skip _)
          exact behind.trans (List.suffix_cons _ _)
  · split at read
    · exact absurd read (by simp)
    · exact absurd read (by simp)
    · next atom =>
      obtain ⟨-, rfl⟩ := Prod.mk.inj (Except.ok.inj read)
      exact (limits_of_atom? atom).1

/-- Where no container may open any more, one bracket is too many. -/
theorem due_of_valueWith_none {s : Text} {stop : Stop} (read : valueWith none s = .error stop) :
    stop.IsDue 0 s := by
  unfold valueWith at read
  split at read
  · split at read
    · next failed =>
      obtain rfl := Except.error.inj read
      exact due_of_string failed _ _
    · exact absurd read (by simp)
  · obtain rfl := Except.error.inj read
    exact List.countP_pos_iff.mpr ⟨_, List.mem_cons_self, rfl⟩
  · obtain rfl := Except.error.inj read
    exact List.countP_pos_iff.mpr ⟨_, List.mem_cons_self, rfl⟩
  · split at read
    · obtain rfl := Except.error.inj read
      trivial
    · next atom =>
      obtain rfl := Except.error.inj read
      exact (limits_of_atom? atom).2 _ rfl _
    · exact absurd read (by simp)

theorem due_of_valueWith_some (limited : inner.IsLimited depth) {s : Text} {stop : Stop}
    (read : valueWith (some inner) s = .error stop) : stop.IsDue (depth + 1) s := by
  unfold valueWith at read
  split at read
  · split at read
    · next failed =>
      obtain rfl := Except.error.inj read
      exact due_of_string failed _ _
    · exact absurd read (by simp)
  · dsimp only at read
    split at read
    · exact absurd read (by simp)
    · split at read
      · next failed =>
        obtain rfl := Except.error.inj read
        exact ((due_of_items limited failed).mono (suffix_skip _)).cons rfl
      · exact absurd read (by simp)
  · dsimp only at read
    split at read
    · exact absurd read (by simp)
    · split at read
      · next failed =>
        obtain rfl := Except.error.inj read
        exact ((due_of_members limited failed).mono (suffix_skip _)).cons rfl
      · exact absurd read (by simp)
  · split at read
    · obtain rfl := Except.error.inj read
      trivial
    · next atom =>
      obtain rfl := Except.error.inj read
      exact (limits_of_atom? atom).2 _ rfl _
    · exact absurd read (by simp)

theorem isLimited_value (depth : Nat) : Inner.IsLimited (value depth) depth := by
  induction depth with
  | zero =>
    have none : ∀ i ∈ (Option.none : Option Inner), i.IsLimited 0 :=
      fun i member => absurd member (by simp)
    exact ⟨fun s v rest read => suffix_of_valueWith none read,
      fun s stop read => due_of_valueWith_none read⟩
  | succ depth ih =>
    have inner : ∀ i ∈ some (value depth), i.IsLimited depth := by
      intro i member
      rw [← Option.some.inj member]
      exact ih
    exact ⟨fun s v rest read => suffix_of_valueWith inner read,
      fun s stop read => due_of_valueWith_some ih read⟩

/-- What a document is given up for is due in it. -/
theorem due_of_document {room : Nat} {t : Text} {stop : Stop} (h : document room t = .error stop) :
    stop.IsDue room t := by
  unfold document at h
  split at h
  · obtain rfl := Except.error.inj h
    trivial
  · split at h
    · next failed =>
      obtain rfl := Except.error.inj h
      exact ((isLimited_value room).due _ _ failed).mono (suffix_skip t)
    · split at h
      · exact absurd h (by simp)
      · obtain rfl := Except.error.inj h
        trivial

/-- Whether a text may be too much for the reader, judged by its brackets and its digits alone. -/
def IsExcessive (room : Nat) (t : Text) : Prop := room < openings t ∨ ∃ n, HasRow n t

/-- Whether an error is that a text is too much for the reader, not that something is wrong in it.
-/
def ReadError.IsLimit : ReadError → Prop
  | malformed _ => False
  | tooDeep _ | tooManyDigits _ => True

/-- Only a text with too many brackets or digits is too much for the reader. -/
theorem isExcessive_of_read {room : Nat} {t : Text} {error : ReadError}
    (h : read room t = .error error) (limit : error.IsLimit) : IsExcessive room t := by
  unfold read at h
  split at h
  · exact absurd h (by simp)
  · obtain rfl := Except.error.inj h
    exact limit.elim
  · next failed => exact .inl (due_of_document failed)
  · next failed => exact .inr ⟨_, due_of_document failed⟩

/-! ## Brackets one behind the other -/

/-- What stops the first item of an array stops the array. -/
theorem valueWith_bracket {inner : Inner} {s : Text} {stop : Stop}
    (stops : inner (.scalar '[' :: s) = .error stop) :
    valueWith (some inner) (.scalar '[' :: .scalar '[' :: s) = .error stop := by
  have solid : skip (.scalar '[' :: s) = .scalar '[' :: s := rfl
  rw [valueWith]
  split
  · next close =>
    rw [solid] at close
    exact absurd close (by simp)
  · simp only [solid]
    rw [items, stops]

/-- As many brackets as containers may be open, and one more, are too many. -/
theorem value_brackets (depth : Nat) (s : Text) :
    value depth (List.replicate (depth + 1) (.scalar '[') ++ s) = .error (.tooDeep .array) := by
  induction depth with
  | zero => rfl
  | succ depth ih =>
    rw [List.replicate_succ, List.cons_append] at ih
    exact valueWith_bracket ih

theorem read_brackets (room : Nat) (s : Text) :
    read room (List.replicate (room + 1) (.scalar '[') ++ s) = .error (.tooDeep .array) := by
  have stops := value_brackets room s
  rw [List.replicate_succ, List.cons_append] at stops ⊢
  generalize List.replicate room (.scalar '[') ++ s = t at stops ⊢
  have solid : skip (.scalar '[' :: t) = .scalar '[' :: t := rfl
  rw [← solid] at stops
  have document : document room (.scalar '[' :: t) = .error (.tooDeep .array) := by
    rw [document.eq_2]
    · simp only [stops]
    · intro tail mark
      exact absurd (List.cons.inj mark).1 (by decide)
  rw [read, document]

end Grimoire.Json
