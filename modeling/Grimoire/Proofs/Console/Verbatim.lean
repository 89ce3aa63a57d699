import Mathlib.Data.List.TakeWhile
import Grimoire.Proofs.Console.Encodable

/-!
# Texts that are printed as they are

A text is printed as it is if it holds no mark, no backslash before a bracket, no control, and no name
that the console has another picture for (`Markup.IsPlain`), and only then: the first three make what is
printed shorter than the text, and pictures do not make it longer (`Markup.plain_eq_self_iff`). Behind a
label in a style of the program the same texts are printed as they are (`Markup.plain_labelled_iff`), and
nothing stops their drawing.
-/

namespace Grimoire.Markup

/-- Whether a text holds a mark: what stands between two brackets next to each other, and starts as marks
do. -/
def HasMark (t : Text) : Prop :=
  ∃ before c body after, startsMark c = true ∧ (∀ d ∈ body, isBracket d = false) ∧
    t = before ++ .scalar '[' :: c :: body ++ .scalar ']' :: after

/-- Whether nothing in a text is read as anything but itself. -/
structure IsPlain (rules : Rules) (t : Text) : Prop where
  noMark : ¬HasMark t
  noSlash : ¬[.scalar '\\', .scalar '['] <:+: t
  noPicture : rules.withPictures t = t
  noControl : ∀ c ∈ t, isControl c = false

variable {rules : Rules} {t u body out : Text} {c : CodePoint} {reversed : Text} {position : Nat}

/-! ## Marks -/

theorem markBody?_eq_some : markBody? t = some body ↔
    ∃ c rest after, body = c :: rest ∧ startsMark c = true ∧ (∀ d ∈ rest, isBracket d = false) ∧
      t = .scalar '[' :: c :: rest ++ .scalar ']' :: after := by
  constructor
  · intro found
    unfold markBody? at found
    split at found
    · next c t =>
      split at found
      · next starts =>
        split at found
        · next after ends =>
          obtain rfl := Option.some.inj found
          refine ⟨c, _, after, rfl, starts, fun d member => ?_, ?_⟩
          · simpa using List.mem_takeWhile_imp member
          · rw [← ends, List.cons_append, List.cons_append, List.takeWhile_append_dropWhile]
        · cases found
      · cases found
    · cases found
  · rintro ⟨c, rest, after, rfl, starts, inner, rfl⟩
    have inner' : ∀ d ∈ rest, (!isBracket d) = true := fun d member => by simp [inner d member]
    have closing : (!isBracket (.scalar ']')) = false := by decide
    simp only [markBody?, List.cons_append, starts, if_true,
      List.dropWhile_append_of_pos inner', List.takeWhile_append_of_pos inner',
      List.dropWhile_cons, List.takeWhile_cons, closing, Bool.false_eq_true, if_false,
      List.append_nil]

theorem HasMark.of_suffix (inside : HasMark u) (suffix : u <:+ t) : HasMark t := by
  obtain ⟨front, rfl⟩ := suffix
  obtain ⟨before, c, body, after, starts, inner, rfl⟩ := inside
  exact ⟨front ++ before, c, body, after, starts, inner, by simp⟩

theorem hasMark_of_markBody? (found : markBody? t = some body) : HasMark t := by
  obtain ⟨c, rest, after, -, starts, inner, rfl⟩ := markBody?_eq_some.mp found
  exact ⟨[], c, rest, after, starts, inner, rfl⟩

theorem hasMark_cons : HasMark (c :: t) ↔ markBody? (c :: t) ≠ none ∨ HasMark t := by
  constructor
  · rintro ⟨before, d, body, after, starts, inner, same⟩
    cases before with
    | nil =>
      have found := markBody?_eq_some.mpr ⟨d, body, after, rfl, starts, inner, same⟩
      exact .inl (by simp [found])
    | cons e before => exact .inr ⟨before, d, body, after, starts, inner, (List.cons.inj same).2⟩
  · rintro (first | rest)
    · obtain ⟨body, found⟩ := Option.ne_none_iff_exists'.mp first
      exact hasMark_of_markBody? found
    · exact rest.of_suffix (List.suffix_cons ..)

theorem hasMark_cons_of_ne (other : c ≠ .scalar '[') : HasMark (c :: t) ↔ HasMark t := by
  have none : markBody? (c :: t) = none := by
    cases found : markBody? (c :: t) with
    | none => rfl
    | some body =>
      obtain ⟨d, rest, after, -, -, -, same⟩ := markBody?_eq_some.mp found
      exact absurd (List.cons.inj same).1 other
  rw [hasMark_cons, none]
  simp

/-- A mark that is found cuts the text, with the backslashes before it. -/
theorem piecesFrom_of_some (found : markBody? ((c :: t).drop (slashes (c :: t))) = some body)
    (reversed : Text) (position : Nat) :
    piecesFrom reversed position (c :: t) =
      flush reversed ++ markPieces position (slashes (c :: t)) body
        ++ piecesFrom [] (position + (slashes (c :: t) + body.length + 2))
          (t.drop (slashes (c :: t) + body.length + 2 - 1)) := by
  rw [piecesFrom]
  simp only [found]

/-- Where no mark is found, the first code point is plain. -/
theorem piecesFrom_of_none (found : markBody? ((c :: t).drop (slashes (c :: t))) = none)
    (reversed : Text) (position : Nat) :
    piecesFrom reversed position (c :: t) = piecesFrom (c :: reversed) (position + 1) t := by
  rw [piecesFrom]
  simp only [found]

/-- A text without marks is one piece. -/
theorem piecesFrom_of_noMark (none : ¬HasMark t) (reversed : Text) (position : Nat) :
    piecesFrom reversed position t = flush (t.reverse ++ reversed) := by
  induction t generalizing reversed position with
  | nil =>
    rw [piecesFrom]
    rfl
  | cons c t ih =>
    have here : markBody? ((c :: t).drop (slashes (c :: t))) = Option.none := by
      cases found : markBody? ((c :: t).drop (slashes (c :: t))) with
      | none => rfl
      | some body => exact absurd ((hasMark_of_markBody? found).of_suffix (List.drop_suffix ..)) none
    rw [piecesFrom_of_none here, ih fun later => none (later.of_suffix (List.suffix_cons ..))]
    simp

/-! ## What is printed is no longer than the text -/

/-- The code points that pieces print at most. -/
def size : List Piece → Nat
  | [] => 0
  | .plain t :: pieces => t.length + size pieces
  | .mark .. :: pieces => size pieces

theorem size_append (first second : List Piece) : size (first ++ second) = size first + size second := by
  induction first with
  | nil => simp [size]
  | cons piece first ih => cases piece <;> simp [size, ih, Nat.add_assoc]

theorem size_flush (reversed : Text) : size (flush reversed) = reversed.length := by
  cases reversed <;> simp [flush, size]

theorem size_markPieces_lt (position count : Nat) (body : Text) :
    size (markPieces position count body) < count + body.length + 2 := by
  have kept : size (if (List.replicate (count / 2) (CodePoint.scalar '\\')).isEmpty then []
      else [.plain (List.replicate (count / 2) (CodePoint.scalar '\\'))]) = count / 2 := by
    split
    · next none => simpa [size, eq_comm] using none
    · simp [size]
  simp only [markPieces, size_append, kept]
  split
  · simp only [size, List.length_append, List.length_cons, List.length_nil]
    omega
  · simp only [size]
    omega

/-- A mark makes the pieces shorter than the text. -/
theorem size_piecesFrom (reversed : Text) (position : Nat) (t : Text) :
    size (piecesFrom reversed position t) ≤ reversed.length + t.length ∧
      (HasMark t → size (piecesFrom reversed position t) < reversed.length + t.length) := by
  induction reversed, position, t using piecesFrom.induct with
  | case1 reversed position =>
    rw [piecesFrom, size_flush]
    refine ⟨Nat.le_refl _, ?_⟩
    rintro ⟨before, c, body, after, -, -, same⟩
    simp at same
  | case2 reversed position c rest count body found size' ih =>
    obtain ⟨d, inner, after, rfl, -, -, same⟩ := markBody?_eq_some.mp found
    have long : count + (d :: inner).length + 2 ≤ (c :: rest).length := by
      have lengths := congrArg List.length same
      simp only [List.length_drop, List.length_append, List.length_cons] at lengths ⊢
      omega
    have marked := size_markPieces_lt position count (d :: inner)
    have rest' := ih.1
    rw [piecesFrom_of_some found, size_append, size_append, size_flush]
    simp only [List.length_nil, List.length_drop, List.length_cons, count, size'] at rest' long marked ⊢
    exact ⟨by omega, fun _ => by omega⟩
  | case3 reversed position c rest count found ih =>
    rw [piecesFrom_of_none found]
    simp only [List.length_cons] at ih ⊢
    refine ⟨by omega, fun has => ?_⟩
    rcases hasMark_cons.mp has with first | later
    · -- a mark at the start would have been found: nothing stands before its bracket
      obtain ⟨body, here⟩ := Option.ne_none_iff_exists'.mp first
      obtain ⟨d, inner, after, -, -, -, same⟩ := markBody?_eq_some.mp here
      have bare : count = 0 := by
        simp only [count, slashes, (List.cons.inj same).1]
        rfl
      rw [bare, List.drop_zero] at found
      exact absurd found first
    · have less := ih.2 later
      omega

theorem dropSlashes_eq_self (none : ¬[.scalar '\\', .scalar '['] <:+: t) : dropSlashes t = t := by
  fun_induction dropSlashes t with
  | case1 => rfl
  | case2 t ih => exact absurd ⟨[], t, rfl⟩ none
  | case3 c t other ih =>
    rw [ih fun inside => none (inside.trans (List.suffix_cons c t).isInfix)]

/-- A backslash before a bracket is dropped. -/
theorem length_dropSlashes (t : Text) : (dropSlashes t).length ≤ t.length ∧
    ([.scalar '\\', .scalar '['] <:+: t → (dropSlashes t).length < t.length) := by
  fun_induction dropSlashes t with
  | case1 => simp
  | case2 t ih =>
    simp only [List.length_cons]
    exact ⟨by omega, fun _ => by omega⟩
  | case3 c t other ih =>
    simp only [List.length_cons]
    refine ⟨by omega, fun inside => ?_⟩
    rcases List.infix_cons_iff.mp inside with ⟨rest, same⟩ | later
    · rw [List.cons_append, List.cons_append, List.nil_append] at same
      obtain ⟨rfl, rfl⟩ := List.cons.inj same
      exact absurd rfl (other rest rfl)
    · have less := ih.2 later
      omega

theorem length_pictureInForm? {name shown : Text}
    (found : rules.pictureInForm? name = some shown) : shown.length ≤ name.length + 2 := by
  have endings : ∀ e ∈ forms, e.2.length = 1 ∧ 0 < e.1.length := by decide
  unfold Rules.pictureInForm? at found
  split at found
  · next ending form asked =>
    obtain ⟨picture, named, rfl⟩ := Option.map_eq_some_iff.mp found
    have known := endings _ (List.mem_of_find?_eq_some asked)
    have ends : ending.isSuffixOf name = true := by simpa using List.find?_some asked
    have suffix := (List.isSuffixOf_iff_suffix.mp ends).length_le
    have brief := rules.picture_brief _ _ named
    simp only [List.length_append, List.length_take] at known suffix brief ⊢
    omega
  · exact rules.picture_brief _ _ found

/-- Pictures make a text no longer. -/
theorem length_withPictures (rules : Rules) (t : Text) : (rules.withPictures t).length ≤ t.length := by
  fun_induction Rules.withPictures rules t with
  | case1 => exact Nat.le_refl _
  | case2 rest isName name behind closes ih =>
    have named : ((rules.pictureInForm? name).getD
        (.scalar ':' :: name ++ [.scalar ':'])).length ≤ name.length + 2 := by
      cases found : rules.pictureInForm? name with
      | none => simp
      | some shown => exact length_pictureInForm? found
    have long : name.length < rest.length := by
      have lengths := congrArg List.length closes
      simp only [List.length_drop, List.length_cons] at lengths
      omega
    simp only [List.length_append, List.length_drop, List.length_cons] at ih ⊢
    omega
  | case3 rest isName name other ih => simpa using ih
  | case4 c rest other ih => simpa using ih

/-- After a mark the rest is printed, with other styles open. -/
theorem printed_of_mark {opened : List OpenStyle} {pieces : List Piece}
    (prints : rules.printed opened (.mark position body :: pieces) = .ok out) :
    ∃ opened', rules.printed opened' pieces = .ok out := by
  rw [Rules.printed] at prints
  split at prints
  · cases closed : rules.close position body opened with
    | error fault => rw [closed] at prints; cases prints
    | ok rest => exact ⟨rest, by rw [closed] at prints; exact prints⟩
  · cases new : rules.opened body with
    | error fault => rw [new] at prints; cases prints
    | ok style => exact ⟨style :: opened, by rw [new] at prints; exact prints⟩

theorem length_printed {opened : List OpenStyle} {pieces : List Piece}
    (prints : rules.printed opened pieces = .ok out) : out.length ≤ size pieces := by
  induction pieces generalizing opened out with
  | nil =>
    obtain rfl := Except.ok.inj prints
    exact Nat.le_refl _
  | cons piece pieces ih =>
    cases piece with
    | plain t =>
      rw [Rules.printed] at prints
      cases rest : rules.printed opened pieces with
      | error fault => rw [rest] at prints; cases prints
      | ok u =>
        rw [rest] at prints
        obtain rfl := Except.ok.inj prints
        have first := length_withPictures rules (dropSlashes t)
        have second := (length_dropSlashes t).1
        have third := ih rest
        rw [List.length_append, size]
        omega
    | mark position body =>
      obtain ⟨opened', rest⟩ := printed_of_mark prints
      exact ih rest

/-! ## Plain texts -/

/-- What is shown of a text that starts at a position and before which all styles are closed. -/
def plainFrom (rules : Rules) (position : Nat) (t : Text) : Except MarkupFault Text :=
  (List.filter fun c => !isControl c) <$> rules.printed [] (piecesFrom [] position t)

theorem printed_flush (t : Text) :
    rules.printed [] (flush t.reverse) = .ok (rules.withPictures (dropSlashes t)) := by
  cases t with
  | nil => simp [flush, Rules.printed, dropSlashes, Rules.withPictures]
  | cons c t => simp [flush, Rules.printed, Functor.map, Except.map]

/-- A text is shown as it is exactly if nothing in it is read as anything else. -/
theorem plainFrom_eq_self_iff (position : Nat) (t : Text) :
    plainFrom rules position t = .ok t ↔ IsPlain rules t := by
  constructor
  · intro shows
    obtain ⟨out, prints, kept⟩ : ∃ out, rules.printed [] (piecesFrom [] position t) = .ok out ∧
        (out.filter fun c => !isControl c) = t := by
      rw [plainFrom] at shows
      cases prints : rules.printed [] (piecesFrom [] position t) with
      | error fault => rw [prints] at shows; cases shows
      | ok out => exact ⟨out, rfl, Except.ok.inj (prints ▸ shows)⟩
    -- every step from the text to what is shown makes it no longer, so none of them makes it shorter
    have most := length_printed prints
    have least : t.length ≤ out.length := by
      rw [← kept]
      exact List.length_filter_le ..
    obtain ⟨sized, marked⟩ := size_piecesFrom [] position t
    have noMark : ¬HasMark t := fun has => by
      have less := marked has
      simp only [List.length_nil] at less
      omega
    have all : (out.filter fun c => !isControl c) = out := by
      refine List.filter_sublist.eq_of_length_le ?_
      rw [kept]
      simpa using most.trans sized
    obtain rfl := all.symm.trans kept
    rw [piecesFrom_of_noMark noMark, List.append_nil, printed_flush] at prints
    have shown := Except.ok.inj prints
    have noSlash : ¬[.scalar '\\', .scalar '['] <:+: out := fun inside => by
      have less := (length_dropSlashes out).2 inside
      have pictured := length_withPictures rules (dropSlashes out)
      rw [shown] at pictured
      omega
    rw [dropSlashes_eq_self noSlash] at shown
    exact ⟨noMark, noSlash, shown, fun c member => by
      simpa using List.filter_eq_self.mp all c member⟩
  · intro plain
    rw [plainFrom, piecesFrom_of_noMark plain.noMark, List.append_nil, printed_flush,
      dropSlashes_eq_self plain.noSlash, plain.noPicture]
    exact congrArg Except.ok (List.filter_eq_self.mpr fun c member => by
      simp [plain.noControl c member])

theorem plain_eq_self_iff : rules.plain t = .ok t ↔ IsPlain rules t := plainFrom_eq_self_iff 0 t

instance : DecidablePred (IsPlain rules) := fun _ => decidable_of_iff _ plain_eq_self_iff

theorem IsPlain.plain (plain : IsPlain rules t) : rules.plain t = .ok t := plain_eq_self_iff.mpr plain

/-- Nothing stops the drawing of a plain text. -/
theorem IsPlain.isDrawn (plain : IsPlain rules t) : IsDrawn rules t :=
  isDrawn_of_isOwn (by rw [piecesFrom_of_noMark plain.noMark]; exact isOwn_flush _)

theorem isPlain_nil : IsPlain rules [] where
  noMark := by simp [HasMark]
  noSlash := by simp
  noPicture := by rw [Rules.withPictures]
  noControl := by simp

/-- A colon with nothing behind it belongs to no name. -/
theorem withPictures_label (flat : .scalar ':' ∉ t) : rules.withPictures (t ++ ":") = t ++ ":" := by
  induction t with
  | nil => simp [Text.ofString, Rules.withPictures]
  | cons c t ih =>
    rw [List.mem_cons, not_or] at flat
    rw [List.cons_append, Rules.withPictures.eq_3 _ _ _ (fun same => flat.1 same.symm), ih flat.2]

theorem isPlain_space : IsPlain rules (.scalar ' ' :: t) ↔ IsPlain rules t := by
  have noMark : HasMark (.scalar ' ' :: t) ↔ HasMark t := hasMark_cons_of_ne (by decide)
  have noSlash : [.scalar '\\', .scalar '['] <:+: (CodePoint.scalar ' ' :: t) ↔
      [.scalar '\\', .scalar '['] <:+: t := by
    rw [List.infix_cons_iff]
    refine or_iff_right fun ⟨rest, same⟩ => ?_
    exact absurd (List.cons.inj same).1 (by decide)
  have noPicture : rules.withPictures (.scalar ' ' :: t) = .scalar ' ' :: t ↔
      rules.withPictures t = t := by
    rw [Rules.withPictures.eq_3 _ _ _ (by decide)]
    simp
  constructor
  · intro h
    exact ⟨mt noMark.mpr h.1, mt noSlash.mpr h.2, noPicture.mp h.3,
      fun c member => h.4 c (List.mem_cons_of_mem _ member)⟩
  · intro h
    refine ⟨mt noMark.mp h.1, mt noSlash.mp h.2, noPicture.mpr h.3, fun c member => ?_⟩
    rcases List.mem_cons.mp member with rfl | member
    · decide
    · exact h.4 c member

/-! ## Labels -/

/-- A text behind a label in a style of its own. -/
def labelled (style label t : Text) : Text :=
  "[" ++ style ++ "]" ++ label ++ "[/" ++ style ++ "] " ++ t

/-- Whether a label in a style of the program is printed as it is. -/
structure IsLabel (rules : Rules) (style label : Text) : Prop where
  own : style ∈ ownStyles
  flat : ∀ d ∈ label, d ≠ .scalar '[' ∧ d ≠ .scalar '\\'
  plain : IsPlain rules label

theorem exists_cons_of_own {style : Text} (own : style ∈ ownStyles) :
    ∃ c rest, style = c :: rest ∧ startsMark c = true ∧ c ≠ .scalar '/' ∧ c ≠ .scalar '@' := by
  simp only [ownStyles, List.mem_cons, List.not_mem_nil, or_false] at own
  rcases own with rfl | rfl | rfl <;> exact ⟨_, _, rfl, by decide, by decide, by decide⟩

theorem markName_own : ∀ style ∈ ownStyles, markName style = style := by decide

theorem inner_own : ∀ style ∈ ownStyles, ∀ d ∈ style, isBracket d = false := by decide

theorem trim_own : ∀ style ∈ ownStyles, Text.trim style = style := by decide +kernel

/-- The mark of a style of the program opens it. -/
theorem opened_own {style : Text} (own : style ∈ ownStyles) :
    rules.opened style = .ok ⟨style, []⟩ := by
  rw [Rules.opened, markName_own style own, rules.style_own style own]
  dsimp only
  rw [List.drop_of_length_le (Nat.le_succ _)]

/-- The mark that closes a style of the program does so. -/
theorem close_own {style : Text} (own : style ∈ ownStyles) (position : Nat) :
    rules.close position (.scalar '/' :: style) [⟨style, []⟩] = .ok [] := by
  obtain ⟨c, rest, same, -, -, -⟩ := exists_cons_of_own own
  have named : markName (.scalar '/' :: style) = .scalar '/' :: style :=
    congrArg (CodePoint.scalar '/' :: ·) (markName_own style own)
  have some : style.isEmpty = false := by rw [same]; rfl
  simp only [Rules.close, named, List.drop_succ_cons, List.drop_zero, trim_own style own, some,
    rules.style_own style own]
  simp [Rules.leave]

/-- A mark is a piece of its own. -/
theorem piecesFrom_mark {rest : Text} (starts : startsMark c = true)
    (inner : ∀ d ∈ rest, isBracket d = false) (reversed : Text) (position : Nat) (t : Text) :
    piecesFrom reversed position (.scalar '[' :: c :: rest ++ .scalar ']' :: t) =
      flush reversed ++ .mark position (c :: rest)
        :: piecesFrom [] (position + (rest.length + 3)) t := by
  have bare : slashes (.scalar '[' :: c :: rest ++ .scalar ']' :: t) = 0 := rfl
  have found := markBody?_eq_some.mpr ⟨c, rest, t, rfl, starts, inner, rfl⟩
  rw [List.cons_append] at found bare ⊢
  rw [piecesFrom_of_some (by rw [bare, List.drop_zero]; exact found), bare]
  have behind : (c :: rest ++ .scalar ']' :: t).drop (0 + (c :: rest).length + 2 - 1) = t := by
    rw [List.append_cons]
    exact List.drop_left' (by simp)
  rw [behind, List.append_assoc, List.length_cons]
  simp only [markPieces, List.replicate, Nat.zero_div, List.isEmpty_nil, if_true, Nat.zero_mod,
    Nat.zero_ne_one, if_false, List.nil_append, List.singleton_append, Nat.zero_mul, Nat.add_zero,
    Nat.zero_add]

/-- Code points that neither start nor escape a mark are passed over. -/
theorem piecesFrom_append {front : Text}
    (flat : ∀ d ∈ front, d ≠ .scalar '[' ∧ d ≠ .scalar '\\') (reversed : Text) (position : Nat)
    (t : Text) : piecesFrom reversed position (front ++ t) =
      piecesFrom (front.reverse ++ reversed) (position + front.length) t := by
  induction front generalizing reversed position with
  | nil => simp
  | cons c front ih =>
    rw [List.forall_mem_cons] at flat
    have bare : slashes (c :: (front ++ t)) = 0 := by simp [slashes, flat.1.2]
    have found : markBody? (c :: (front ++ t)) = none := by
      cases found : markBody? (c :: (front ++ t)) with
      | none => rfl
      | some body =>
        obtain ⟨d, rest, after, -, -, -, same⟩ := markBody?_eq_some.mp found
        exact absurd (List.cons.inj same).1 flat.1.1
    rw [List.cons_append, piecesFrom_of_none (by rw [bare, List.drop_zero]; exact found), ih flat.2]
    simp [Nat.add_assoc, Nat.add_comm 1]

theorem printed_flush_append (opened : List OpenStyle) (t : Text) (pieces : List Piece) :
    rules.printed opened (flush t.reverse ++ pieces)
      = (rules.withPictures (dropSlashes t) ++ ·) <$> rules.printed opened pieces := by
  cases t with
  | nil =>
    simp only [flush, List.reverse_nil, List.isEmpty_nil, if_true, List.nil_append, dropSlashes,
      Rules.withPictures]
    cases rules.printed opened pieces <;> rfl
  | cons c t => simp [flush, Rules.printed]

variable {style label : Text}

/-- A label is the mark that opens its style, its text and the mark that closes the style. -/
theorem piecesFrom_labelled (isLabel : IsLabel rules style label) (t : Text) :
    ∃ closed behind, piecesFrom [] 0 (labelled style label t) =
      .mark 0 style :: (flush label.reverse ++ .mark closed (.scalar '/' :: style)
        :: piecesFrom [] behind (.scalar ' ' :: t)) := by
  have inner := inner_own style isLabel.own
  obtain ⟨c, rest, rfl, starts, -⟩ := exists_cons_of_own isLabel.own
  have parts : labelled (c :: rest) label t = .scalar '[' :: c :: rest ++ .scalar ']' ::
      (label ++ (.scalar '[' :: .scalar '/' :: c :: rest ++ .scalar ']' :: .scalar ' ' :: t)) := by
    simp [labelled, Text.ofString]
  rw [parts, piecesFrom_mark starts fun d member => inner d (List.mem_cons_of_mem c member),
    piecesFrom_append isLabel.flat, piecesFrom_mark (by decide) inner, List.append_nil]
  exact ⟨_, _, rfl⟩

/-- A label is shown before what is shown of the text behind it. -/
theorem plain_labelled (isLabel : IsLabel rules style label) (t : Text) :
    ∃ behind, rules.plain (labelled style label t)
      = (label ++ ·) <$> plainFrom rules behind (.scalar ' ' :: t) := by
  obtain ⟨closed, behind, pieces⟩ := piecesFrom_labelled isLabel t
  obtain ⟨c, rest, same, -, opens, -⟩ := exists_cons_of_own isLabel.own
  have slash : style.head? ≠ some (.scalar '/') := by simpa [same] using opens
  have kept : (label.filter fun c => !isControl c) = label :=
    List.filter_eq_self.mpr fun c member => by simp [isLabel.plain.noControl c member]
  have marked : rules.printed [] (piecesFrom [] 0 (labelled style label t))
      = (label ++ ·) <$> rules.printed [] (piecesFrom [] behind (.scalar ' ' :: t)) := by
    rw [pieces, Rules.printed, if_neg slash, opened_own isLabel.own]
    change rules.printed [⟨style, []⟩] _ = _
    rw [printed_flush_append, dropSlashes_eq_self isLabel.plain.noSlash, isLabel.plain.noPicture,
      Rules.printed, List.head?_cons, if_pos rfl, close_own isLabel.own]
    rfl
  refine ⟨behind, ?_⟩
  rw [Rules.plain, marked, plainFrom]
  cases rules.printed [] (piecesFrom [] behind (.scalar ' ' :: t)) with
  | error fault => rfl
  | ok out => simp [Functor.map, Except.map, kept]

/-- Behind a label, exactly the plain texts are shown as they are. -/
theorem plain_labelled_iff (isLabel : IsLabel rules style label) (t : Text) :
    rules.plain (labelled style label t) = .ok (label ++ " " ++ t) ↔ IsPlain rules t := by
  obtain ⟨behind, shown⟩ := plain_labelled isLabel t
  rw [shown, ← isPlain_space, ← plainFrom_eq_self_iff behind]
  constructor
  · intro prints
    cases out : plainFrom rules behind (.scalar ' ' :: t) with
    | error fault =>
      rw [out] at prints
      cases prints
    | ok u =>
      rw [out] at prints
      have joined : label ++ u = label ++ " " ++ t := Except.ok.inj prints
      rw [List.append_assoc] at joined
      rw [List.append_cancel_left joined]
      rfl
  · intro plain
    rw [plain, List.append_assoc]
    rfl

/-- Nothing stops the drawing of a plain text behind a label. -/
theorem isDrawn_labelled (isLabel : IsLabel rules style label) (plain : IsPlain rules t) :
    IsDrawn rules (labelled style label t) := by
  obtain ⟨closed, behind, pieces⟩ := piecesFrom_labelled isLabel t
  have opens : (Piece.mark 0 style).isOwn = true :=
    List.any_eq_true.mpr ⟨style, isLabel.own, by simp⟩
  have closes : (Piece.mark closed (.scalar '/' :: style)).isOwn = true :=
    List.any_eq_true.mpr ⟨style, isLabel.own, by simp⟩
  refine isDrawn_of_isOwn ?_
  rw [pieces, piecesFrom_of_noMark (isPlain_space.mpr plain).noMark]
  simp only [List.all_cons, List.all_append, opens, closes, isOwn_flush, Bool.and_self]

/-- A plain text behind a label is wrapped as it is. -/
theorem lines_labelled (isLabel : IsLabel rules style label) (plain : IsPlain rules t) (limit : Nat)
    (overflow : Console.Overflow) (justify : Console.Justify) (isWhole : Bool) :
    rules.lines limit overflow justify isWhole (labelled style label t)
      = .ok (Console.wrap limit overflow justify isWhole (label ++ " " ++ t)) := by
  rw [Rules.lines, (plain_labelled_iff isLabel t).mpr plain]
  exact congrArg (drawn · (Console.wrap limit overflow justify isWhole (label ++ " " ++ t)))
    (isDrawn_labelled isLabel plain limit overflow justify isWhole)

/-- Code points of which none is read as anything else, with a colon behind them, are a label. -/
theorem isPlain_label (flat : ∀ c ∈ t, c ≠ .scalar '[' ∧ c ≠ .scalar ':' ∧ isControl c = false) :
    IsPlain rules (t ++ ":") := by
  have bare : CodePoint.scalar '[' ∉ t ++ Text.ofString ":" := fun member => by
    rcases List.mem_append.mp member with member | member
    · exact (flat _ member).1 rfl
    · exact absurd member (by decide)
  refine ⟨fun ⟨before, c, body, after, _, _, same⟩ => bare (by simp [same]),
    fun ⟨before, after, same⟩ => bare (by simp [← same]),
    withPictures_label fun member => (flat _ member).2.1 rfl, fun c member => ?_⟩
  rcases List.mem_append.mp member with member | member
  · exact (flat c member).2.2
  · obtain rfl := List.mem_singleton.mp member
    decide

theorem isLabel_error : IsLabel rules "red" "Error:" :=
  ⟨by decide, by decide, isPlain_label (t := Text.ofString "Error") (by decide)⟩

theorem labelled_error (t : Text) : labelled "red" "Error:" t = "[red]Error:[/red] " ++ t :=
  congrArg (· ++ t) (by decide)

theorem isLabel_warning : IsLabel rules "yellow" "warning:" :=
  ⟨by decide, by decide, isPlain_label (t := Text.ofString "warning") (by decide)⟩

theorem labelled_warning (t : Text) :
    labelled "yellow" "warning:" t = "[yellow]warning:[/yellow] " ++ t :=
  congrArg (· ++ t) (by decide)

end Grimoire.Markup
