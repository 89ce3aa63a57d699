import Grimoire.Console.Table
import Grimoire.Proofs.Bundle.Encodable

/-!
# Tables that can be encoded

Wrapping puts spaces and dots into a text, and a table draws borders around its cells. All else that is
shown comes from the texts. So a table whose texts have no brackets, which could be marks, has lines, and
the lines can be encoded if the texts can (`Table.lines_eq_ok`).
-/

namespace Grimoire

namespace Console

open Text

variable {t : Text}

theorem isEncodable_of_subset {u : Text} (encodable : t.isEncodable = true)
    (inside : ∀ c ∈ u, c ∈ t) : u.isEncodable = true := by
  rw [isEncodable, List.all_eq_true] at encodable ⊢
  exact fun c member => encodable c (inside c member)

@[simp]
theorem isEncodable_spaces (n : Nat) : (spaces n).isEncodable = true := by
  simp [isEncodable, spaces, CodePoint.isScalar]

@[simp]
theorem isEncodable_cons (c : CodePoint) (t : Text) :
    isEncodable (c :: t) = (c.isScalar && t.isEncodable) := rfl

theorem isEncodable_expandTabs (encodable : t.isEncodable = true) (before : Nat) :
    (expandTabs before t).isEncodable = true := by
  fun_induction expandTabs before t with
  | case1 => rfl
  | case2 before t gap ih => simpa using ih encodable
  | case3 before c t other ih =>
    rw [isEncodable_cons, Bool.and_eq_true] at encodable ⊢
    exact ⟨encodable.1, ih encodable.2⟩

theorem isEncodable_splitAfter (encodable : t.isEncodable = true) (start : Nat) (places : List Nat) :
    ∀ piece ∈ splitAfter start t places, piece.isEncodable = true := fun piece member =>
  isEncodable_of_subset encodable fun c inside => by
    rw [← flatten_splitAfter start t places]
    exact List.mem_flatten.mpr ⟨piece, member, inside⟩

theorem isEncodable_take (encodable : t.isEncodable = true) (n : Nat) :
    isEncodable (t.take n) = true :=
  isEncodable_of_subset encodable fun _ => List.mem_of_mem_take

theorem isEncodable_cutSearch (encodable : t.isEncodable = true) (fuel total low high : Nat) :
    (cutSearch fuel total low high t).isEncodable = true := by
  induction fuel generalizing low high with
  | zero => exact isEncodable_take encodable low
  | succ fuel ih =>
    have front := isEncodable_take encodable ((low + high) / 2 + 1)
    unfold cutSearch
    dsimp only
    split
    · have most := isEncodable_of_subset front fun _ => List.mem_of_mem_dropLast
      simp [most]
    · split
      · exact front
      · split <;> exact ih _ _

theorem isEncodable_truncate (encodable : t.isEncodable = true) (limit : Nat) (overflow : Overflow) :
    (truncate limit overflow t).isEncodable = true := by
  have cuts (total : Nat) : (cut total t).isEncodable = true := by
    unfold cut
    split
    · rfl
    · exact isEncodable_cutSearch encodable _ _ _ _
  unfold truncate
  split
  · exact encodable
  · cases overflow <;> simp [cuts]

theorem isEncodable_trimRight (encodable : t.isEncodable = true) :
    (trimRight t).isEncodable = true :=
  isEncodable_of_subset encodable fun c member => by
    rw [trimRight, List.mem_reverse] at member
    exact List.mem_reverse.mp ((List.dropWhile_suffix _).subset member)

theorem isEncodable_place (encodable : t.isEncodable = true) (limit : Nat) (overflow : Overflow)
    (justify : Justify) : (place limit overflow justify t).isEncodable = true := by
  have trimmed := isEncodable_trimRight encodable
  cases justify with
  | plain => exact isEncodable_truncate encodable limit overflow
  | center => simp [place, isEncodable_truncate trimmed limit overflow]
  | right => simp [place, isEncodable_truncate trimmed limit overflow]

theorem isEncodable_wrap (encodable : t.isEncodable = true) (limit : Nat) (overflow : Overflow)
    (justify : Justify) (isWhole : Bool) :
    ∀ line ∈ wrap limit overflow justify isWhole t, line.isEncodable = true := by
  intro line member
  obtain ⟨whole, inside, member⟩ := List.mem_flatMap.mp member
  obtain ⟨piece, part, rfl⟩ := List.mem_map.mp member
  have first := isEncodable_of_subset encodable (subset_of_mem_splitOn whole inside)
  have second := isEncodable_splitAfter (isEncodable_expandTabs first 0) 0 _ piece part
  exact isEncodable_place (isEncodable_take second _) limit overflow justify

theorem isEncodable_border (b : Border) (widths : List Nat) :
    (border b widths).isEncodable = true := by
  have lines : isEncodable (join [.scalar b.divider]
      (widths.map fun w => List.replicate w (.scalar b.line))) = true := by
    refine isEncodable_join rfl fun u member => ?_
    obtain ⟨w, -, rfl⟩ := List.mem_map.mp member
    simp [isEncodable, CodePoint.isScalar]
  simp [border, lines, CodePoint.isScalar]

theorem isEncodable_rowLines (edge : Char) (widths : List Nat) {cells : List (List Text)}
    (each : ∀ lines ∈ cells, ∀ line ∈ lines, line.isEncodable = true) :
    ∀ line ∈ rowLines edge widths cells, line.isEncodable = true := by
  intro line member
  obtain ⟨i, -, rfl⟩ := List.mem_map.mp member
  have parts : isEncodable (join [.scalar edge]
      ((widths.zip cells).map fun cell => cell.2[i]?.getD (spaces cell.1))) = true := by
    refine isEncodable_join rfl fun u member => ?_
    obtain ⟨⟨w, lines⟩, inside, rfl⟩ := List.mem_map.mp member
    dsimp only
    cases found : lines[i]? with
    | none => simp
    | some line => exact each lines (List.of_mem_zip inside).2 line (List.mem_of_getElem? found)
  simp [parts, CodePoint.isScalar]

theorem isEncodable_tableLines {title : Text} {columns : List (Column × List Text)}
    (title' : title.isEncodable = true)
    (each : ∀ column ∈ columns, ∀ t ∈ column.2, t.isEncodable = true) :
    ∀ line ∈ tableLines title columns, line.isEncodable = true := by
  have row (widths : List Nat) (i : Nat) : ∀ lines ∈ (columns.zip widths).map
      fun cell => cellLines cell.1.1 cell.2 (cell.1.2[i]?.getD []),
      ∀ line ∈ lines, line.isEncodable = true := by
    intro lines member line inside
    obtain ⟨⟨⟨column, texts⟩, w⟩, part, rfl⟩ := List.mem_map.mp member
    obtain ⟨piece, wrapped, rfl⟩ := List.mem_map.mp inside
    have cell : isEncodable (texts[i]?.getD []) = true := by
      cases found : texts[i]? with
      | none => rfl
      | some t =>
        exact each _ (List.of_mem_zip part).1 t (List.mem_of_getElem? found)
    simp [fill, isEncodable_wrap cell _ _ _ _ piece wrapped]
  simp only [tableLines, List.forall_mem_append, List.forall_mem_singleton, List.forall_mem_flatMap,
    and_assoc]
  exact ⟨isEncodable_wrap title' _ _ _ _, isEncodable_border _ _, isEncodable_rowLines _ _ (row _ _),
    isEncodable_border _ _, fun i _ => isEncodable_rowLines _ _ (row _ i), isEncodable_border _ _⟩

/-- Whether a text holds no marks and can be encoded. -/
def IsShowable (t : Text) : Prop := .scalar '[' ∉ t ∧ t.isEncodable = true

instance : DecidablePred IsShowable := fun _ => inferInstanceAs (Decidable (_ ∧ _))

theorem isShowable_append {u : Text} : IsShowable (t ++ u) ↔ IsShowable t ∧ IsShowable u := by
  simp only [IsShowable, List.mem_append, isEncodable_append, Bool.and_eq_true]
  tauto

theorem isShowable_ofNat (n : Nat) : IsShowable (Text.ofNat n) := by
  refine ⟨fun member => ?_, isEncodable_ofNat n⟩
  obtain ⟨c, digit, same⟩ := List.mem_map.mp member
  have isDigit := Nat.isDigit_of_mem_toDigits (by decide) (by decide) digit
  rw [CodePoint.scalar.inj same] at isDigit
  exact absurd isDigit (by decide)

/-- The text of a path is shown as it is if its names are. -/
theorem isShowable_text {p : Path} (names : ∀ name ∈ p.names, IsShowable name) :
    IsShowable p.text := by
  have anchor (a : Anchor) : IsShowable a.text := by cases a <;> decide
  have joined {ns : List Text} (each : ∀ name ∈ ns, IsShowable name) :
      IsShowable (join "/" ns) := by
    refine ⟨fun member => ?_, isEncodable_join (by simp) fun name inside => (each name inside).2⟩
    cases ns with
    | nil => exact absurd member (by simp [join])
    | cons n ns =>
      rw [List.forall_mem_cons] at each
      rw [join, List.mem_append, List.mem_flatMap] at member
      rcases member with first | ⟨name, inside, member⟩
      · exact each.1.1 first
      · rcases List.mem_append.mp member with slash | own
        · exact absurd slash (by decide)
        · exact (each.2 name inside).1 own
  unfold Path.text
  split
  · decide
  · exact isShowable_append.mpr ⟨anchor _, joined names⟩

end Console

namespace Markup

open Text Console

theorem isEncodable_dropSlashes {t : Text} (encodable : t.isEncodable = true) :
    (dropSlashes t).isEncodable = true := by
  fun_induction dropSlashes t with
  | case1 => rfl
  | case2 t ih => simpa [CodePoint.isScalar] using ih (by simpa [CodePoint.isScalar] using encodable)
  | case3 c t other ih =>
    rw [isEncodable_cons, Bool.and_eq_true] at encodable ⊢
    exact ⟨encodable.1, ih encodable.2⟩

variable {rules : Rules}

theorem isEncodable_pictureInForm? {name t : Text} (found : rules.pictureInForm? name = some t) :
    t.isEncodable = true := by
  have marks : ∀ e ∈ forms, e.2.isEncodable = true := by decide
  unfold Rules.pictureInForm? at found
  split at found
  · next ending mark form =>
    obtain ⟨picture, named, rfl⟩ := Option.map_eq_some_iff.mp found
    simp [rules.picture_encodable _ _ named, marks _ (List.mem_of_find?_eq_some form)]
  · exact rules.picture_encodable _ _ found

theorem isEncodable_withPictures {t : Text} (encodable : t.isEncodable = true) :
    (rules.withPictures t).isEncodable = true := by
  fun_induction Rules.withPictures rules t with
  | case1 => rfl
  | case2 rest isName name _ behind ih =>
    have rest' : isEncodable rest = true := encodable
    have whole : isEncodable (.scalar ':' :: name ++ [.scalar ':']) = true := by
      have inner : isEncodable name = true :=
        isEncodable_of_subset rest' fun _ member => (List.takeWhile_prefix isName).subset member
      simp [CodePoint.isScalar, inner]
    have named : isEncodable
        ((rules.pictureInForm? name).getD (.scalar ':' :: name ++ [.scalar ':'])) = true := by
      cases found : rules.pictureInForm? name with
      | none => exact whole
      | some t => exact isEncodable_pictureInForm? found
    rw [isEncodable_append, named,
      ih (isEncodable_of_subset rest' fun _ => List.mem_of_mem_drop)]
    rfl
  | case3 rest isName name other ih => exact ih encodable
  | case4 c rest other ih =>
    rw [isEncodable_cons, Bool.and_eq_true] at encodable ⊢
    exact ⟨encodable.1, ih encodable.2⟩

/-- A text without marks can be shown. -/
theorem plain_eq_ok (rules : Rules) {t : Text} (showable : IsShowable t) :
    ∃ shown, rules.plain t = .ok shown ∧ shown.isEncodable = true :=
  ⟨_, rules.plain_of_noBracket showable.1, isEncodable_of_subset
    (isEncodable_withPictures (isEncodable_dropSlashes showable.2)) fun _ => List.mem_of_mem_filter⟩

/-- Whether nothing stops the drawing of a text. -/
def IsDrawn (rules : Rules) (t : Text) : Prop :=
  ∀ limit overflow justify isWhole, rules.drawingFault? limit overflow justify isWhole t = none

/-- Where all marks are those of the program, nothing stops the drawing. -/
theorem isDrawn_of_isOwn {t : Text} (own : (piecesFrom [] 0 t).all Piece.isOwn = true) :
    IsDrawn rules t := fun limit overflow justify isWhole =>
  rules.drawn_own limit overflow justify isWhole t own

theorem isOwn_flush (reversed : Text) : (flush reversed).all Piece.isOwn = true := by
  cases reversed <;> rfl

theorem isDrawn_of_noBracket {t : Text} (h : CodePoint.scalar '[' ∉ t) : IsDrawn rules t :=
  isDrawn_of_isOwn (by rw [piecesFrom_of_noBracket h]; exact isOwn_flush _)

end Markup

namespace Table

open Text Console

variable {rules : Markup.Rules} {table : Table}

/-- A text in a column is its header, a text in a row or nothing. -/
theorem forall_filled {P : Text → Prop} (empty : P [])
    (headers : ∀ column ∈ table.columns, P column.header)
    (cells : ∀ row ∈ table.rows, ∀ t ∈ row, P t) : ∀ column ∈ table.filled, ∀ t ∈ column.2, P t := by
  intro column member
  obtain ⟨⟨column, i⟩, inside, rfl⟩ := List.mem_map.mp member
  dsimp only
  rw [List.forall_mem_cons, List.forall_mem_map]
  refine ⟨headers column (List.of_mem_zip inside).1, fun row member => ?_⟩
  cases found : row[i]? with
  | none => exact empty
  | some t => exact cells row member t (List.mem_of_getElem? found)

/-- A table is drawn if its texts are. -/
theorem drawingFault?_eq_none (title : Markup.IsDrawn rules table.title)
    (cells : ∀ column ∈ table.filled, ∀ t ∈ column.2, Markup.IsDrawn rules t) (widths : List Nat) :
    table.drawingFault? rules widths = none := by
  rw [drawingFault?, title, Option.none_or, List.findSome?_eq_none_iff]
  intro i _
  rw [List.findSome?_eq_none_iff]
  rintro ⟨⟨column, texts⟩, w⟩ member
  dsimp only
  cases found : texts[i]? with
  | none => exact Markup.isDrawn_of_noBracket (by simp) _ _ _ _
  | some t => exact cells _ (List.of_mem_zip member).1 t (List.mem_of_getElem? found) _ _ _ _

theorem mapM_total {α β : Type} {f : α → Except MarkupFault β} {P : β → Prop} {items : List α}
    (each : ∀ item ∈ items, ∃ b, f item = .ok b ∧ P b) :
    ∃ results, items.mapM f = .ok results ∧ ∀ b ∈ results, P b := by
  induction items with
  | nil => exact ⟨[], rfl, by simp⟩
  | cons item items ih =>
    rw [List.forall_mem_cons] at each
    obtain ⟨first, one, holds⟩ := each.1
    obtain ⟨rest, others, hold⟩ := ih each.2
    refine ⟨first :: rest, ?_, List.forall_mem_cons.mpr ⟨holds, hold⟩⟩
    rw [List.mapM_cons, one, others]
    rfl

/-- A table has lines if its texts are read and drawn. -/
theorem lines_of_plain {title : Text} {columns : List (Column × List Text)}
    (plains : (table.filled.mapM fun (column, texts) => do
      return (column, ← texts.mapM rules.plain)) = .ok columns)
    (plain : rules.plain table.title = .ok title)
    (drawn : ∀ widths, table.drawingFault? rules widths = none) :
    table.lines rules = .ok (tableLines title columns) := by
  rw [lines, plains, plain]
  exact congrArg (Markup.drawn · (tableLines title columns)) (drawn (widthsOf columns))

/-- A table of texts without marks has lines, and they can be encoded. -/
theorem lines_eq_ok (rules : Markup.Rules) (title : IsShowable table.title)
    (headers : ∀ column ∈ table.columns, IsShowable column.header)
    (cells : ∀ row ∈ table.rows, ∀ t ∈ row, IsShowable t) :
    ∃ lines, table.lines rules = .ok lines ∧ ∀ line ∈ lines, line.isEncodable = true := by
  have showable := forall_filled (P := IsShowable) ⟨by simp, rfl⟩ headers cells
  obtain ⟨shownTitle, plain, encodable⟩ := Markup.plain_eq_ok rules title
  obtain ⟨columns, plains, encodables⟩ : ∃ columns, (table.filled.mapM fun (column, texts) => do
      return (column, ← texts.mapM rules.plain)) = .ok columns ∧
      ∀ column ∈ columns, ∀ t ∈ column.2, t.isEncodable = true := by
    refine mapM_total fun column member => ?_
    obtain ⟨texts, plain, encodable⟩ := mapM_total fun t inside =>
      Markup.plain_eq_ok rules (showable column member t inside)
    exact ⟨(column.1, texts), congrArg (Prod.mk column.1 <$> ·) plain, encodable⟩
  refine ⟨tableLines shownTitle columns, lines_of_plain plains plain ?_,
    isEncodable_tableLines encodable encodables⟩
  exact drawingFault?_eq_none (Markup.isDrawn_of_noBracket title.1) fun column member t inside =>
    Markup.isDrawn_of_noBracket (showable column member t inside).1

end Table

end Grimoire
