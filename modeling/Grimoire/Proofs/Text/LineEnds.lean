import Grimoire.Text.CodePoint

/-!
# Line ends

Making every line end of a text a line feed gives a text with the same lines
(`Text.sameLines_unixNewlines`). What holds no line end starts both texts or none, and what stands
behind it has the same lines again (`Text.SameLines.prefix_left`, `Text.SameLines.prefix_right`).
-/

namespace Grimoire

namespace Text

/-- Whether the second text is the first one with a line feed for each carriage return, which may take
the line feed behind it along. -/
inductive SameLines : Text → Text → Prop
  | nil : SameLines [] []
  | keep {c : CodePoint} {t u : Text} (plain : c ≠ .scalar '\r') (rest : SameLines t u) :
      SameLines (c :: t) (c :: u)
  | single {t u : Text} (rest : SameLines t u) : SameLines (.scalar '\r' :: t) (.scalar '\n' :: u)
  | pair {t u : Text} (rest : SameLines t u) :
      SameLines (.scalar '\r' :: .scalar '\n' :: t) (.scalar '\n' :: u)

theorem sameLines_go (done t : Text) :
    ∃ u, unixNewlines.go done t = done.reverse ++ u ∧ SameLines t u := by
  fun_induction unixNewlines.go done t with
  | case1 done => exact ⟨[], (List.append_nil _).symm, .nil⟩
  | case2 done t ih =>
    obtain ⟨u, go, rest⟩ := ih
    exact ⟨.scalar '\n' :: u, by simp [go], .pair rest⟩
  | case3 done t alone ih =>
    obtain ⟨u, go, rest⟩ := ih
    exact ⟨.scalar '\n' :: u, by simp [go], .single rest⟩
  | case4 done c t _ plain ih =>
    obtain ⟨u, go, rest⟩ := ih
    exact ⟨c :: u, by simp [go], .keep plain rest⟩

theorem sameLines_unixNewlines (t : Text) : SameLines t (unixNewlines t) := by
  obtain ⟨u, go, same⟩ := sameLines_go [] t
  exact (show unixNewlines t = u from go) ▸ same

namespace SameLines

variable {c : CodePoint} {s t u : Text}

/-- The code points that come first are the same, or both end a line. -/
theorem head (same : SameLines (c :: t) u) :
    ∃ d u', u = d :: u' ∧ (c ≠ .scalar '\r' ∧ d = c ∧ SameLines t u' ∨
      c = .scalar '\r' ∧ d = .scalar '\n') := by
  cases same with
  | keep plain rest => exact ⟨_, _, rfl, .inl ⟨plain, rfl, rest⟩⟩
  | single rest => exact ⟨_, _, rfl, .inr ⟨rfl, rfl⟩⟩
  | pair rest => exact ⟨_, _, rfl, .inr ⟨rfl, rfl⟩⟩

theorem left (same : SameLines (c :: t) u) (plain : c ≠ .scalar '\r') :
    ∃ u', u = c :: u' ∧ SameLines t u' := by
  obtain ⟨d, u', rfl, ⟨-, rfl, rest⟩ | ⟨return', -⟩⟩ := same.head
  · exact ⟨u', rfl, rest⟩
  · exact absurd return' plain

theorem right (same : SameLines t (c :: u)) (plain : c ≠ .scalar '\n') :
    ∃ t', t = c :: t' ∧ SameLines t' u := by
  cases same with
  | keep _ rest => exact ⟨_, rfl, rest⟩
  | single => exact absurd rfl plain
  | pair => exact absurd rfl plain

/-- What starts the first text nowhere starts the second one neither. -/
theorem ne_cons (same : SameLines t u) (none : ∀ r, t ≠ c :: r) (plain : c ≠ .scalar '\n')
    (r : Text) : u ≠ c :: r := by
  rintro rfl
  obtain ⟨t', rfl, -⟩ := same.right plain
  exact none t' rfl

theorem nil_left (same : SameLines [] u) : u = [] := by
  cases same
  rfl

theorem nil_right (same : SameLines t []) : t = [] := by
  cases same
  rfl

/-- What holds no carriage return starts the second text if it starts the first one. -/
theorem prefix_left {front : Text} (flat : ∀ c ∈ front, c ≠ .scalar '\r')
    (same : SameLines (front ++ s) t) : ∃ t', t = front ++ t' ∧ SameLines s t' := by
  induction front generalizing t with
  | nil => exact ⟨t, rfl, same⟩
  | cons c front ih =>
    rw [List.forall_mem_cons] at flat
    obtain ⟨u, rfl, rest⟩ := same.left flat.1
    obtain ⟨t', rfl, behind⟩ := ih flat.2 rest
    exact ⟨t', rfl, behind⟩

/-- What holds no line feed starts the first text if it starts the second one. -/
theorem prefix_right {front : Text} (flat : ∀ c ∈ front, c ≠ .scalar '\n')
    (same : SameLines s (front ++ t)) : ∃ s', s = front ++ s' ∧ SameLines s' t := by
  induction front generalizing s with
  | nil => exact ⟨s, rfl, same⟩
  | cons c front ih =>
    rw [List.forall_mem_cons] at flat
    obtain ⟨u, rfl, rest⟩ := same.right flat.1
    obtain ⟨s', rfl, behind⟩ := ih flat.2 rest
    exact ⟨s', rfl, behind⟩

theorem isPrefixOf {word : Text} (flat : ∀ c ∈ word, c ≠ .scalar '\r' ∧ c ≠ .scalar '\n')
    (same : SameLines s t) : word.isPrefixOf s = word.isPrefixOf t := by
  rw [Bool.eq_iff_iff, List.isPrefixOf_iff_prefix, List.isPrefixOf_iff_prefix]
  constructor
  · rintro ⟨r, rfl⟩
    obtain ⟨u, rfl, -⟩ := same.prefix_left fun c member => (flat c member).1
    exact List.prefix_append _ _
  · rintro ⟨r, rfl⟩
    obtain ⟨u, rfl, -⟩ := same.prefix_right fun c member => (flat c member).2
    exact List.prefix_append _ _

/-- Code points of a kind that ends no line are the same at the start of both texts. -/
theorem span {p : CodePoint → Bool} (flat : p (.scalar '\r') = false ∧ p (.scalar '\n') = false)
    (same : SameLines s t) :
    s.takeWhile p = t.takeWhile p ∧ SameLines (s.dropWhile p) (t.dropWhile p) := by
  induction same with
  | nil => exact ⟨rfl, .nil⟩
  | @keep c t u plain rest ih =>
    cases holds : p c with
    | true => simpa [holds] using ih
    | false => simpa [holds] using SameLines.keep plain rest
  | single rest ih => simpa [flat] using SameLines.single rest
  | pair rest ih => simpa [flat] using SameLines.pair rest

end SameLines

end Text

end Grimoire
