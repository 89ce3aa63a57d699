import Grimoire.Text.CodePoint

/-!
# Lines

A text without carriage returns has unix line ends already (`Text.unixNewlines_eq_self`). Cutting a
text at a separator and joining the pieces undo each other (`Text.join_splitOn`,
`Text.splitOn_join`), so putting a margin in front of the lines of a text loses nothing of it
(`Text.indent_injective`). The lines of joined texts are the lines of the texts
(`Text.lines_join`).
-/

namespace Grimoire.Text

/-! ## Line ends -/

theorem unixNewlines_go (done : Text) {t : Text} (plain : ∀ c ∈ t, c ≠ .scalar '\r') :
    unixNewlines.go done t = done.reverse ++ t := by
  induction t generalizing done with
  | nil => simp [unixNewlines.go]
  | cons c t ih =>
    rw [List.forall_mem_cons] at plain
    rw [unixNewlines.go, ih _ plain.2]
    · simp
    · rintro s rfl
      exact absurd rfl plain.1
    · exact plain.1

theorem unixNewlines_eq_self {t : Text} (plain : ∀ c ∈ t, c ≠ .scalar '\r') :
    unixNewlines t = t :=
  unixNewlines_go [] plain

/-! ## Cutting and joining -/

theorem splitOn_cons_self (sep : CodePoint) (t : Text) :
    splitOn sep (sep :: t) = [] :: splitOn sep t := by simp [splitOn]

/-- A code point that does not separate goes to the first piece. -/
theorem splitOn_cons {sep c : CodePoint} (other : c ≠ sep) (t : Text) :
    ∃ piece pieces, splitOn sep t = piece :: pieces ∧
      splitOn sep (c :: t) = (c :: piece) :: pieces :=
  ⟨_, _, rfl, by simp [splitOn, other]⟩

theorem not_mem_of_mem_splitOn (sep : CodePoint) (t : Text) :
    ∀ piece ∈ splitOn sep t, sep ∉ piece := by
  induction t with
  | nil => simp [splitOn]
  | cons c t ih =>
    by_cases same : c = sep
    · subst same
      rw [splitOn_cons_self, List.forall_mem_cons]
      exact ⟨List.not_mem_nil, ih⟩
    · obtain ⟨piece, pieces, cut, cut'⟩ := splitOn_cons same t
      rw [cut, List.forall_mem_cons] at ih
      rw [cut', List.forall_mem_cons, List.mem_cons, not_or]
      exact ⟨⟨Ne.symm same, ih.1⟩, ih.2⟩

/-- The pieces of a text hold nothing but what the text holds. -/
theorem subset_of_mem_splitOn {sep : CodePoint} {t : Text} :
    ∀ piece ∈ splitOn sep t, ∀ c ∈ piece, c ∈ t := by
  induction t with
  | nil => simp [splitOn]
  | cons c t ih =>
    by_cases same : c = sep
    · rw [same, splitOn_cons_self, List.forall_mem_cons]
      exact ⟨by simp, fun piece inside d member => .tail _ (ih piece inside d member)⟩
    · obtain ⟨piece, others, cut, cut'⟩ := splitOn_cons same t
      rw [cut, List.forall_mem_cons] at ih
      rw [cut', List.forall_mem_cons, List.forall_mem_cons]
      exact ⟨⟨List.mem_cons_self, fun d member => .tail _ (ih.1 d member)⟩,
        fun piece inside d member => .tail _ (ih.2 piece inside d member)⟩

/-- What holds of the separator and in all pieces holds in the text. -/
theorem forall_mem_of_splitOn {p : CodePoint → Prop} {sep : CodePoint} (separator : p sep)
    {t : Text} (pieces : ∀ piece ∈ splitOn sep t, ∀ c ∈ piece, p c) : ∀ c ∈ t, p c := by
  induction t with
  | nil => simp
  | cons c t ih =>
    rw [List.forall_mem_cons]
    by_cases same : c = sep
    · rw [same, splitOn_cons_self, List.forall_mem_cons] at pieces
      exact ⟨same ▸ separator, ih pieces.2⟩
    · obtain ⟨piece, others, cut, cut'⟩ := splitOn_cons same t
      rw [cut', List.forall_mem_cons, List.forall_mem_cons] at pieces
      rw [cut, List.forall_mem_cons] at ih
      exact ⟨pieces.1.1, ih ⟨pieces.1.2, pieces.2⟩⟩

theorem join_cons_cons (sep t u : Text) (ts : List Text) :
    join sep (t :: u :: ts) = t ++ (sep ++ join sep (u :: ts)) := by simp [join]

/-- Joining the pieces gives the text back. -/
theorem join_splitOn (sep : CodePoint) (t : Text) : join [sep] (splitOn sep t) = t := by
  induction t with
  | nil => rfl
  | cons c t ih =>
    obtain ⟨piece, pieces, cut⟩ :=
      List.exists_cons_of_ne_nil (show splitOn sep t ≠ [] by simp [splitOn])
    by_cases same : c = sep
    · subst same
      rw [splitOn_cons_self, cut, join_cons_cons, ← cut, ih]
      rfl
    · obtain ⟨piece', pieces', cut', cut''⟩ := splitOn_cons same t
      rw [cut''] at *
      rw [cut'] at ih
      rw [← ih]
      rfl

theorem splitOn_append {sep : CodePoint} {piece : Text} (plain : sep ∉ piece) (t : Text) :
    splitOn sep (piece ++ sep :: t) = piece :: splitOn sep t := by
  induction piece with
  | nil => exact splitOn_cons_self sep t
  | cons c piece ih =>
    rw [List.mem_cons, not_or] at plain
    obtain ⟨first, rest, cut, cut'⟩ := splitOn_cons (Ne.symm plain.1) (piece ++ sep :: t)
    obtain ⟨rfl, rfl⟩ := List.cons.inj (cut.symm.trans (ih plain.2))
    exact cut'

theorem splitOn_plain {sep : CodePoint} {t : Text} (plain : sep ∉ t) : splitOn sep t = [t] := by
  induction t with
  | nil => rfl
  | cons c t ih =>
    rw [List.mem_cons, not_or] at plain
    obtain ⟨first, rest, cut, cut'⟩ := splitOn_cons (Ne.symm plain.1) t
    obtain ⟨rfl, rfl⟩ := List.cons.inj (cut.symm.trans (ih plain.2))
    exact cut'

/-- Cutting gives the pieces back that were joined. -/
theorem splitOn_join {sep : CodePoint} (piece : Text) (pieces : List Text)
    (plain : ∀ t ∈ piece :: pieces, sep ∉ t) :
    splitOn sep (join [sep] (piece :: pieces)) = piece :: pieces := by
  induction pieces generalizing piece with
  | nil =>
    rw [join, List.flatMap_nil, List.append_nil]
    exact splitOn_plain (plain piece (by simp))
  | cons next pieces ih =>
    rw [List.forall_mem_cons] at plain
    rw [join_cons_cons, List.singleton_append, splitOn_append plain.1, ih next plain.2]

/-- What has no separator in it goes to the first piece. -/
theorem splitOn_append_of_notMem {sep : CodePoint} {front : Text} (plain : sep ∉ front) (t : Text) :
    ∃ piece pieces, splitOn sep t = piece :: pieces ∧
      splitOn sep (front ++ t) = (front ++ piece) :: pieces := by
  induction front with
  | nil => exact ⟨_, _, rfl, rfl⟩
  | cons c front ih =>
    rw [List.mem_cons, not_or] at plain
    obtain ⟨piece, pieces, cut, cut'⟩ := ih plain.2
    obtain ⟨first, rest, cut'', last⟩ := splitOn_cons (Ne.symm plain.1) (front ++ t)
    obtain ⟨rfl, rfl⟩ := List.cons.inj (cut'.symm.trans cut'')
    exact ⟨piece, pieces, cut, last⟩

/-- What has no separator in it goes to the last piece. -/
theorem splitOn_append_plain {sep : CodePoint} {back : Text} (plain : sep ∉ back) (t : Text) :
    ∃ pieces piece, splitOn sep t = pieces ++ [piece] ∧
      splitOn sep (t ++ back) = pieces ++ [piece ++ back] := by
  induction t with
  | nil => exact ⟨[], [], rfl, splitOn_plain plain⟩
  | cons c t ih =>
    obtain ⟨pieces, piece, cut, cut'⟩ := ih
    by_cases same : c = sep
    · rw [same, List.cons_append, splitOn_cons_self, splitOn_cons_self, cut, cut']
      exact ⟨[] :: pieces, piece, rfl, rfl⟩
    · obtain ⟨first, rest, split, split'⟩ := splitOn_cons same t
      obtain ⟨first', rest', joined, joined'⟩ := splitOn_cons same (t ++ back)
      rw [List.cons_append, split', joined']
      rw [cut] at split
      rw [cut'] at joined
      cases pieces with
      | nil =>
        obtain ⟨rfl, rfl⟩ := List.cons.inj split
        obtain ⟨rfl, rfl⟩ := List.cons.inj joined
        exact ⟨[], c :: piece, rfl, rfl⟩
      | cons p pieces =>
        obtain ⟨rfl, rfl⟩ := List.cons.inj split
        obtain ⟨rfl, rfl⟩ := List.cons.inj joined
        exact ⟨(c :: p) :: pieces, piece, rfl, rfl⟩

/-- A separator between two texts parts their pieces. -/
theorem splitOn_append_cons (sep : CodePoint) (t u : Text) :
    splitOn sep (t ++ sep :: u) = splitOn sep t ++ splitOn sep u := by
  induction t with
  | nil => exact splitOn_cons_self sep u
  | cons c t ih =>
    by_cases same : c = sep
    · subst same
      rw [List.cons_append, splitOn_cons_self, splitOn_cons_self, ih, List.cons_append]
    · obtain ⟨piece, pieces, cut, cut'⟩ := splitOn_cons same t
      obtain ⟨first, rest, joined, joined'⟩ := splitOn_cons same (t ++ sep :: u)
      rw [ih, cut, List.cons_append] at joined
      obtain ⟨rfl, rfl⟩ := List.cons.inj joined
      rw [List.cons_append, joined', cut', List.cons_append]

/-- The lines of texts that are joined by line feeds are the lines of the texts. -/
theorem lines_join (t : Text) (ts : List Text) :
    lines (join "\n" (t :: ts)) = (t :: ts).flatMap lines := by
  induction ts generalizing t with
  | nil => simp [join]
  | cons u ts ih =>
    rw [join_cons_cons, List.flatMap_cons, ← ih u]
    exact splitOn_append_cons _ t _

/-! ## Margins -/

theorem lines_indent {margin : Text} (flat : .scalar '\n' ∉ margin) (t : Text) :
    lines (indent margin t) = t.lines.map fun line =>
      if line.isEmpty then line else margin ++ line := by
  have plain : ∀ piece ∈ t.lines.map fun line => if line.isEmpty then line else margin ++ line,
      .scalar '\n' ∉ piece := by
    rw [List.forall_mem_map]
    intro line member
    split
    · exact not_mem_of_mem_splitOn _ t line member
    · rw [List.mem_append, not_or]
      exact ⟨flat, not_mem_of_mem_splitOn _ t line member⟩
  obtain ⟨line, rest, cut⟩ :=
    List.exists_cons_of_ne_nil (show t.lines ≠ [] by simp [lines, splitOn])
  rw [indent]
  rw [cut, List.map_cons] at plain ⊢
  exact splitOn_join _ _ plain

/-- Putting a margin of one line in front of the lines of a text loses nothing of it. -/
theorem indent_injective {margin t u : Text} (flat : .scalar '\n' ∉ margin)
    (h : indent margin t = indent margin u) : t = u := by
  have lines : t.lines = u.lines := by
    refine (List.map_inj_right ?_).mp ((lines_indent flat t).symm.trans (h ▸ lines_indent flat u))
    -- An empty line stays empty, and only an empty line does.
    intro a b same
    cases a <;> cases b <;> simp_all
  rw [← join_splitOn (.scalar '\n') t, ← join_splitOn (.scalar '\n') u]
  exact congrArg _ lines

end Grimoire.Text
