import Grimoire.Template
import Mathlib.Data.List.Chain

/-!
# The parts of a template

A template is cut into parts in one way only (`Template.decomposition_unique`): the parts give the
template back, every placeholder that stands anywhere in it is a part of its own, and all that lies
between two placeholders is a single literal.
-/

namespace Grimoire

namespace Template

/-! ## Placeholders in a text -/

/-- Whether a text can be the key of a placeholder: at least one letter, digit or underscore. -/
def IsKey (key : Text) : Prop := key ≠ [] ∧ ∀ c ∈ key, isWord c = true

/-- Whether a placeholder stands somewhere in a text. -/
def Holds (t : Text) : Prop := ∃ key, IsKey key ∧ (Segment.placeholder key).source <:+: t

theorem source_placeholder (key rest : Text) : (Segment.placeholder key).source ++ rest
    = .scalar '\x7b' :: .scalar '\x7b' :: (key ++ .scalar '\x7d' :: .scalar '\x7d' :: rest) := by
  simp [Segment.source, Text.ofString]

/-- A placeholder at the start of a text is found with its key and with what follows it. -/
theorem placeholder?_eq_some_iff {t key rest : Text} : placeholder? t = some (key, rest) ↔
    IsKey key ∧ t = (Segment.placeholder key).source ++ rest := by
  rw [source_placeholder]
  constructor
  · intro found
    unfold placeholder? at found
    split at found
    · next s =>
      split at found
      · next c run rest' word close =>
        obtain ⟨rfl, rfl⟩ : c :: run = key ∧ rest' = rest := by simpa using found
        refine ⟨⟨List.cons_ne_nil c run, fun d member => ?_⟩, ?_⟩
        · exact List.all_eq_true.mp List.all_takeWhile d (word ▸ member)
        · rw [← close, ← word, List.takeWhile_append_dropWhile]
      · exact absurd found (by simp)
    · exact absurd found (by simp)
  · rintro ⟨⟨some, words⟩, rfl⟩
    have brace : isWord (.scalar '\x7d') = false := by decide
    have word : (key ++ .scalar '\x7d' :: .scalar '\x7d' :: rest).takeWhile isWord = key := by
      rw [List.takeWhile_append_of_pos words, List.takeWhile_cons_of_neg (by simp [brace]),
        List.append_nil]
    have close : (key ++ .scalar '\x7d' :: .scalar '\x7d' :: rest).dropWhile isWord
        = .scalar '\x7d' :: .scalar '\x7d' :: rest := by
      rw [List.dropWhile_append_of_pos words, List.dropWhile_cons_of_neg (by simp [brace])]
    obtain ⟨c, run, rfl⟩ := List.exists_cons_of_ne_nil some
    simp only [placeholder?, word, close]

theorem hasPlaceholder_iff (t : Text) : hasPlaceholder t = true ↔ Holds t := by
  induction t with
  | nil => simp [hasPlaceholder, Holds, Segment.source, Text.ofString]
  | cons c t ih =>
    have front : (placeholder? (c :: t)).isSome = true ↔
        ∃ key, IsKey key ∧ (Segment.placeholder key).source <+: c :: t := by
      rw [Option.isSome_iff_exists, Prod.exists]
      simp only [placeholder?_eq_some_iff]
      constructor
      · rintro ⟨key, rest, isKey, split⟩
        exact ⟨key, isKey, rest, split.symm⟩
      · rintro ⟨key, isKey, rest, split⟩
        exact ⟨key, rest, isKey, split.symm⟩
    rw [hasPlaceholder, Bool.or_eq_true, front, ih]
    simp only [Holds, List.infix_cons_iff, and_or_left, exists_or]

theorem brace_notMem {key : Text} (isKey : IsKey key) :
    .scalar '\x7b' ∉ key ++ [.scalar '\x7d', .scalar '\x7d'] := by
  rw [List.mem_append, not_or]
  exact ⟨fun member => absurd (isKey.2 _ member) (by decide), by decide⟩

/-- Two placeholders of a text do not overlap: they are the same, or the second one starts behind
the first one. -/
theorem placeholders_apart {key key' before after rest : Text} (isKey : IsKey key)
    (isKey' : IsKey key') (same : (Segment.placeholder key).source ++ rest
      = before ++ ((Segment.placeholder key').source ++ after)) :
    (before = [] ∧ key' = key ∧ after = rest) ∨
      ∃ between, before = (Segment.placeholder key).source ++ between ∧
        rest = between ++ ((Segment.placeholder key').source ++ after) := by
  rcases List.append_eq_append_iff.mp same with behind | ⟨overlap, first, second⟩
  · exact .inr behind
  have keyed : (Segment.placeholder key).source = .scalar '\x7b' :: .scalar '\x7b'
      :: (key ++ [.scalar '\x7d', .scalar '\x7d']) := by
    simpa using source_placeholder key []
  rw [source_placeholder] at second
  match before with
  | [] =>
    obtain rfl : _ = overlap := first
    rw [← source_placeholder] at second
    obtain ⟨rfl, rfl⟩ : key' = key ∧ after = rest := by
      have found := placeholder?_eq_some_iff.mpr ⟨isKey', second.symm⟩
      simpa [placeholder?_eq_some_iff.mpr ⟨isKey, rfl⟩, eq_comm] using found
    exact .inl ⟨rfl, rfl, rfl⟩
  | [c] =>
    -- The second brace of the first placeholder would be followed by one more.
    obtain ⟨d, run, rfl⟩ := List.exists_cons_of_ne_nil isKey.1
    obtain ⟨-, rfl⟩ := List.cons.inj (keyed.symm.trans first)
    obtain ⟨-, inner⟩ := List.cons.inj second
    have brace : d = .scalar '\x7b' := (List.cons.inj inner).1.symm
    exact absurd (isKey.2 d (by simp)) (by rw [brace]; decide)
  | c :: d :: before' =>
    have inside : key ++ [.scalar '\x7d', .scalar '\x7d'] = before' ++ overlap :=
      (List.cons.inj (List.cons.inj (keyed.symm.trans first)).2).2
    cases overlap with
    | nil =>
      rw [List.append_nil] at first
      rw [← source_placeholder] at second
      exact .inr ⟨[], by rw [first, List.append_nil], second.symm⟩
    | cons e overlap =>
      have brace : e = .scalar '\x7b' := (List.cons.inj second).1.symm
      exact absurd (inside ▸ by simp [brace]) (brace_notMem isKey)

/-! ## Cutting -/

/-- The text that parts stand for. -/
def source (parts : List Segment) : Text := parts.flatMap Segment.source

/-- Whether parts are a cut of a text at its placeholders. -/
structure IsCut (t : Text) (parts : List Segment) : Prop where
  /-- Nothing is lost or doubled. -/
  source : source parts = t
  keys : ∀ key, .placeholder key ∈ parts → IsKey key
  /-- A placeholder is a part wherever it stands. -/
  found : ∀ key before after, IsKey key →
    t = before ++ ((Segment.placeholder key).source ++ after) →
    ∃ front back, parts = front ++ .placeholder key :: back ∧
      Template.source front = before ∧ Template.source back = after
  plain : ∀ u, .literal u ∈ parts → ¬Holds u
  /-- Two literals do not follow each other. -/
  apart : parts.IsChain fun p q => p.isPlaceholder = true ∨ q.isPlaceholder = true

/-- The parts with a code point of literal text in front. -/
def addFront (c : CodePoint) : List Segment → List Segment
  | .literal u :: parts => .literal (c :: u) :: parts
  | parts => .literal [c] :: parts

theorem source_cons (p : Segment) (parts : List Segment) :
    source (p :: parts) = p.source ++ source parts := List.flatMap_cons

theorem source_append (front back : List Segment) :
    source (front ++ back) = source front ++ source back := List.flatMap_append

theorem source_addFront (c : CodePoint) (parts : List Segment) :
    source (addFront c parts) = c :: source parts := by
  unfold addFront
  split <;> simp [source, Segment.source]

theorem addFront_append (c : CodePoint) (front : List Segment) (key : Text) (back : List Segment) :
    addFront c (front ++ .placeholder key :: back)
      = addFront c front ++ .placeholder key :: back := by
  cases front with
  | nil => rfl
  | cons p front => cases p <;> rfl

theorem isCut_nil : IsCut [] [] := by
  refine ⟨rfl, by simp, fun key before after _ same => ?_, by simp, .nil⟩
  rw [source_placeholder] at same
  exact absurd same (by simp)

theorem IsCut.cons_placeholder {key rest : Text} {parts : List Segment} (isKey : IsKey key)
    (cut : IsCut rest parts) :
    IsCut ((Segment.placeholder key).source ++ rest) (.placeholder key :: parts) := by
  refine ⟨?_, ?_, fun key' before after isKey' same => ?_, ?_, ?_⟩
  · rw [source_cons, cut.source]
  · rintro key' member
    rcases List.mem_cons.mp member with same | member
    · exact Segment.placeholder.inj same ▸ isKey
    · exact cut.keys key' member
  · rcases placeholders_apart isKey isKey' same with ⟨rfl, rfl, rfl⟩ | ⟨between, rfl, rfl⟩
    · exact ⟨[], parts, rfl, rfl, cut.source⟩
    · obtain ⟨front, back, rfl, before, behind⟩ := cut.found key' between after isKey' rfl
      exact ⟨.placeholder key :: front, back, rfl, by rw [source_cons, before], behind⟩
  · intro u member
    exact cut.plain u (by simpa using member)
  · exact cut.apart.cons fun q _ => .inl rfl

/-- The literal that a code point goes to: it has that code point in front of what was literal text
already. -/
theorem mem_addFront {c : CodePoint} {parts : List Segment} {p : Segment}
    (member : p ∈ addFront c parts) :
    p ∈ parts ∨ ∃ u rest, p = .literal (c :: u) ∧ source parts = u ++ source rest ∧
      (u = [] ∨ .literal u ∈ parts) := by
  unfold addFront at member
  split at member
  · next u parts =>
    rcases List.mem_cons.mp member with rfl | member
    · exact .inr ⟨u, parts, rfl, source_cons _ _, .inr List.mem_cons_self⟩
    · exact .inl (.tail _ member)
  · rcases List.mem_cons.mp member with rfl | member
    · exact .inr ⟨[], parts, rfl, rfl, .inl rfl⟩
    · exact .inl member

/-- A code point that starts no placeholder is literal text. -/
theorem IsCut.addFront {c : CodePoint} {t : Text} {parts : List Segment}
    (absent : placeholder? (c :: t) = none) (cut : IsCut t parts) :
    IsCut (c :: t) (addFront c parts) := by
  refine ⟨by rw [source_addFront, cut.source], fun key member => ?_,
    fun key before after isKey same => ?_, fun u member => ?_, ?_⟩
  · rcases mem_addFront member with member | ⟨_, _, other, -⟩
    · exact cut.keys key member
    · exact absurd other (by simp)
  · match before with
    | [] =>
      have found := placeholder?_eq_some_iff.mpr ⟨isKey, same⟩
      exact absurd (absent.symm.trans found) (by simp)
    | d :: before =>
      obtain ⟨rfl, rest⟩ := List.cons.inj same
      obtain ⟨front, back, rfl, before, behind⟩ := cut.found key before after isKey rest
      exact ⟨Template.addFront c front, back, addFront_append c front key back,
        by rw [source_addFront, before], behind⟩
  · rcases mem_addFront member with member | ⟨v, rest, same, split, old⟩
    · exact cut.plain u member
    -- A placeholder in the longer literal would start with its first code point or be an old one.
    · obtain rfl := Segment.literal.inj same
      rintro ⟨key, isKey, inside⟩
      rcases List.infix_cons_iff.mp inside with ⟨more, front⟩ | inside
      · have found : placeholder? (c :: t) = some (key, more ++ Template.source rest) := by
          refine placeholder?_eq_some_iff.mpr ⟨isKey, ?_⟩
          rw [← cut.source, split, ← List.append_assoc, front, List.cons_append]
        exact absurd (absent.symm.trans found) (by simp)
      · rcases old with rfl | member
        · exact absurd (List.infix_nil.mp inside) (by simp [Segment.source, Text.ofString])
        · exact cut.plain v member ⟨key, isKey, inside⟩
  · have apart := cut.apart
    unfold Template.addFront
    split
    · rw [List.isChain_cons] at apart ⊢
      exact apart
    · next other =>
      refine apart.cons fun q first => .inr ?_
      cases q with
      | placeholder key => rfl
      | literal u => exact absurd (List.cons_head?_tail first).symm (other u _)

/-! ## The cut of a text -/

theorem go_placeholder {c : CodePoint} {t key rest : Text} (reversed : Text)
    (found : placeholder? (c :: t) = some (key, rest)) :
    segments.go reversed (c :: t) = flush reversed ++ .placeholder key :: segments.go [] rest := by
  rw [segments.go]
  split
  · next found' =>
    obtain ⟨rfl, rfl⟩ := Prod.mk.inj (Option.some.inj (found'.symm.trans found))
    rfl
  · next absent => exact absurd (absent.symm.trans found) (by simp)

theorem go_literal {c : CodePoint} {t : Text} (reversed : Text)
    (absent : placeholder? (c :: t) = none) :
    segments.go reversed (c :: t) = segments.go (c :: reversed) t := by
  rw [segments.go]
  split
  · next found => exact absurd (absent.symm.trans found) (by simp)
  · rfl

theorem foldl_addFront_literal (reversed u : Text) (parts : List Segment) :
    reversed.foldl (fun parts c => addFront c parts) (.literal u :: parts)
      = .literal (reversed.reverse ++ u) :: parts := by
  induction reversed generalizing u with
  | nil => rfl
  | cons c reversed ih =>
    rw [List.foldl_cons, addFront, ih, List.reverse_cons, List.append_assoc, List.singleton_append]

theorem flush_append {parts : List Segment} (other : ∀ u rest, parts ≠ .literal u :: rest)
    (reversed : Text) :
    flush reversed ++ parts = reversed.foldl (fun parts c => addFront c parts) parts := by
  cases reversed with
  | nil => rfl
  | cons c reversed =>
    have first : addFront c parts = .literal [c] :: parts := by
      unfold addFront
      split
      · exact absurd rfl (other _ _)
      · rfl
    rw [List.foldl_cons, first, foldl_addFront_literal, ← List.reverse_cons]
    rfl

/-- Literal text that has been read already goes to the front of what is still to be cut. -/
theorem go_eq (reversed t : Text) : segments.go reversed t
    = reversed.foldl (fun parts c => addFront c parts) (segments.go [] t) := by
  induction t generalizing reversed with
  | nil =>
    rw [segments.go, segments.go]
    exact (List.append_nil _).symm.trans (flush_append (by simp) reversed)
  | cons c t ih =>
    cases found : placeholder? (c :: t) with
    | some p =>
      rw [go_placeholder reversed found, go_placeholder [] found]
      exact flush_append (by simp) reversed
    | none =>
      rw [go_literal reversed found, go_literal [] found, ih (c :: reversed), ih [c]]
      rfl

theorem go_cons {c : CodePoint} {t : Text} (absent : placeholder? (c :: t) = none) :
    segments.go [] (c :: t) = addFront c (segments.go [] t) := by
  rw [go_literal [] absent, go_eq]
  rfl

/-- Reading from left to right cuts a text at its placeholders, with no empty literal. -/
theorem isCut_go (t : Text) :
    IsCut t (segments.go [] t) ∧ .literal [] ∉ segments.go [] t := by
  match t with
  | [] =>
    rw [segments.go]
    exact ⟨isCut_nil, by simp [flush]⟩
  | c :: t =>
    cases found : placeholder? (c :: t) with
    | some p =>
      obtain ⟨key, rest⟩ := p
      obtain ⟨isKey, split⟩ := placeholder?_eq_some_iff.mp found
      obtain ⟨cut, filled⟩ := isCut_go rest
      rw [go_placeholder [] found, split]
      exact ⟨cut.cons_placeholder isKey, by simpa [flush] using filled⟩
    | none =>
      obtain ⟨cut, filled⟩ := isCut_go t
      rw [go_cons found]
      refine ⟨cut.addFront found, fun member => ?_⟩
      rcases mem_addFront member with member | ⟨_, _, other, -⟩
      · exact filled member
      · exact absurd other (by simp)
termination_by t.length
decreasing_by
  · exact Nat.lt_succ_self _
  · exact placeholder?_length_lt found

/-! ## There is no other cut -/

theorem source_ne_nil {p : Segment} (filled : p ≠ .literal []) : p.source ≠ [] := by
  cases p with
  | literal u => exact fun empty => filled (congrArg Segment.literal empty)
  | placeholder key => simp [Segment.source, Text.ofString]

theorem eq_nil_of_source {parts : List Segment} (filled : .literal [] ∉ parts)
    (empty : source parts = []) : parts = [] := by
  cases parts with
  | nil => rfl
  | cons p parts =>
    rw [source_cons, List.append_eq_nil_iff] at empty
    refine absurd empty.1 (source_ne_nil ?_)
    rintro rfl
    exact filled List.mem_cons_self

/-- A placeholder behind the first part of a cut is found among the other parts. -/
theorem IsCut.found_tail {p : Segment} {t before after key : Text} {parts : List Segment}
    (cut : IsCut t (p :: parts)) (isKey : IsKey key)
    (same : Template.source parts = before ++ ((Segment.placeholder key).source ++ after)) :
    ∃ front back, parts = front ++ .placeholder key :: back ∧
      Template.source front = before ∧ Template.source back = after := by
  have whole : t = (p.source ++ before) ++ ((Segment.placeholder key).source ++ after) := by
    rw [← cut.source, source_cons, same, List.append_assoc]
  obtain ⟨front, back, split, first, behind⟩ := cut.found key _ after isKey whole
  cases front with
  | nil =>
    obtain ⟨rfl, -⟩ := List.cons.inj split
    exact absurd (List.append_eq_nil_iff.mp first.symm).1 (source_ne_nil (by simp))
  | cons q front =>
    obtain ⟨rfl, others⟩ := List.cons.inj split
    rw [source_cons] at first
    exact ⟨front, back, others, List.append_cancel_left first, behind⟩

theorem IsCut.tail {p : Segment} {t : Text} {parts : List Segment} (cut : IsCut t (p :: parts)) :
    IsCut (Template.source parts) parts :=
  ⟨rfl, fun key member => cut.keys key (.tail _ member),
    fun _ _ _ isKey same => cut.found_tail isKey same,
    fun u member => cut.plain u (.tail _ member), cut.apart.tail⟩

/-- A literal of several code points may lose its first one. -/
theorem IsCut.dropFront {c : CodePoint} {t u : Text} {parts : List Segment}
    (cut : IsCut (c :: t) (.literal (c :: u) :: parts)) : IsCut t (.literal u :: parts) := by
  have source : u ++ Template.source parts = t := (List.cons.inj cut.source).2
  refine ⟨source, fun key member => ?_, fun key before after isKey same => ?_,
    fun v member => ?_, ?_⟩
  · rcases List.mem_cons.mp member with other | member
    · exact absurd other (by simp)
    · exact cut.keys key (.tail _ member)
  · obtain ⟨front, back, split, first, behind⟩ :=
      cut.found key (c :: before) after isKey (by rw [same, List.cons_append])
    cases front with
    | nil => exact absurd (List.cons.inj split).1 (by simp)
    | cons q front =>
      obtain ⟨rfl, others⟩ := List.cons.inj split
      exact ⟨.literal u :: front, back, congrArg (.literal u :: ·) others,
        (List.cons.inj first).2, behind⟩
  · rcases List.mem_cons.mp member with same | member
    · obtain rfl := Segment.literal.inj same
      rintro ⟨key, isKey, inside⟩
      exact cut.plain (c :: v) List.mem_cons_self ⟨key, isKey, List.infix_cons inside⟩
    · exact cut.plain v (.tail _ member)
  · have apart := cut.apart
    rw [List.isChain_cons] at apart ⊢
    exact apart

/-- A cut without empty literals is what reading from left to right gives. -/
theorem IsCut.eq_go {t : Text} {parts : List Segment} (cut : IsCut t parts)
    (filled : .literal [] ∉ parts) : parts = segments.go [] t := by
  match t with
  | [] =>
    rw [eq_nil_of_source filled cut.source, segments.go]
    rfl
  | c :: t =>
    cases found : placeholder? (c :: t) with
    | some p =>
      -- The placeholder at the start of the text is the first part.
      obtain ⟨key, rest⟩ := p
      obtain ⟨isKey, split⟩ := placeholder?_eq_some_iff.mp found
      obtain ⟨front, back, rfl, first, behind⟩ := cut.found key [] rest isKey split
      obtain rfl := eq_nil_of_source (fun member => filled (List.mem_append_left _ member)) first
      have tail : IsCut rest back := behind ▸ cut.tail
      rw [go_placeholder [] found, ← tail.eq_go fun member => filled (.tail _ member)]
      rfl
    | none =>
      cases parts with
      | nil => exact absurd cut.source (by simp [Template.source])
      | cons p parts =>
        have source := cut.source
        rw [source_cons] at source
        cases p with
        | placeholder key =>
          have first := placeholder?_eq_some_iff.mpr
            ⟨cut.keys key List.mem_cons_self, source.symm⟩
          exact absurd (found.symm.trans first) (by simp)
        | literal u =>
          -- The first code point belongs to a literal: alone, or in front of the rest of it.
          obtain ⟨d, u, rfl⟩ := List.exists_cons_of_ne_nil fun empty : u = [] =>
            filled (empty ▸ List.mem_cons_self)
          obtain ⟨rfl, rest⟩ := List.cons.inj source
          have others : .literal [] ∉ parts := fun member => filled (.tail _ member)
          rw [go_cons found]
          cases u with
          | nil =>
            have tail : IsCut t parts := rest ▸ cut.tail
            rw [← tail.eq_go others]
            have apart := (List.isChain_cons.mp cut.apart).1
            unfold Template.addFront
            split
            · exact absurd (apart _ rfl) (by simp [Segment.isPlaceholder])
            · rfl
          | cons e u =>
            rw [← cut.dropFront.eq_go (by simpa using others)]
            rfl
termination_by t.length
decreasing_by
  · exact Nat.lt_succ_self _
  · exact Nat.lt_succ_self _
  · exact placeholder?_length_lt found

/-! ## Templates -/

/-- Whether parts are the decomposition of a template: a cut at its placeholders without empty
literals, except that the empty template is one empty literal. -/
structure IsDecomposition (t : Text) (parts : List Segment) : Prop extends IsCut t parts where
  filled : .literal [] ∈ parts → t = []
  blank : t = [] → parts = [.literal []]

theorem not_holds_nil : ¬Holds [] := fun ⟨_, _, inside⟩ =>
  absurd (List.infix_nil.mp inside) (by simp [Segment.source, Text.ofString])

theorem segments_nil : segments [] = [.literal []] := by
  rw [segments, segments.go]
  rfl

theorem segments_cons (c : CodePoint) (t : Text) : segments (c :: t) = segments.go [] (c :: t) := by
  have source := (isCut_go (c :: t)).1.source
  rw [segments]
  split
  · next empty => exact absurd (empty ▸ source) (by simp [Template.source])
  · rfl

theorem isDecomposition_segments (t : Text) : IsDecomposition t (segments t) := by
  cases t with
  | nil =>
    rw [segments_nil]
    refine ⟨⟨rfl, by simp, fun key before after isKey same => ?_, fun u member => ?_, .singleton _⟩,
      fun _ => rfl, fun _ => rfl⟩
    · exact absurd ⟨key, isKey, before, after, by rw [List.append_assoc, ← same]⟩ not_holds_nil
    · obtain rfl : u = [] := by simpa using member
      exact not_holds_nil
  | cons c t =>
    obtain ⟨cut, filled⟩ := isCut_go (c :: t)
    rw [segments_cons]
    exact ⟨cut, fun member => absurd member filled, fun empty => absurd empty (by simp)⟩

theorem holds_iff_mem_segments (t : Text) : Holds t ↔ ∃ key, .placeholder key ∈ segments t := by
  have decomposition := isDecomposition_segments t
  constructor
  · rintro ⟨key, isKey, before, after, split⟩
    obtain ⟨front, back, parts, -⟩ :=
      decomposition.found key before after isKey (by rw [← split, List.append_assoc])
    exact ⟨key, parts ▸ by simp⟩
  · rintro ⟨key, member⟩
    obtain ⟨front, back, parts⟩ := List.append_of_mem member
    refine ⟨key, decomposition.keys key member, source front, source back, ?_⟩
    rw [← decomposition.source, parts, source_append, source_cons, List.append_assoc]

/-- A template has a part that is a placeholder if a placeholder occurs in it. -/
theorem any_segments (t : Text) :
    (segments t).any Segment.isPlaceholder = hasPlaceholder t := by
  rw [Bool.eq_iff_iff, hasPlaceholder_iff, holds_iff_mem_segments, List.any_eq_true]
  constructor
  · rintro ⟨p, member, isPlaceholder⟩
    cases p with
    | literal u => exact absurd isPlaceholder (by simp [Segment.isPlaceholder])
    | placeholder key => exact ⟨key, member⟩
  · rintro ⟨key, member⟩
    exact ⟨_, member, rfl⟩

/-- The parts of a template are a decomposition of it, and the only one: they give the template
back, the placeholders among them are all that stand anywhere in it, each at its place, and what
lies between is in one literal each. The empty template is a single empty literal. A template
counts as one with placeholders exactly when one of its parts is a placeholder. -/
theorem decomposition_unique (t : Text) :
    (∀ parts, IsDecomposition t parts ↔ parts = segments t) ∧
    (hasPlaceholder t = true ↔ ∃ key, .placeholder key ∈ segments t) := by
  refine ⟨fun parts => ⟨fun decomposition => ?_, ?_⟩, ?_⟩
  · cases t with
    | nil => rw [decomposition.blank rfl, segments_nil]
    | cons c t =>
      rw [segments_cons]
      exact decomposition.eq_go fun member => absurd (decomposition.filled member) (by simp)
  · rintro rfl
    exact isDecomposition_segments t
  · rw [hasPlaceholder_iff, holds_iff_mem_segments]

/-- A placeholder between braces that do not belong to it. -/
example : segments "\x7b\x7b\x7ba\x7d\x7d\x7d"
    = [.literal "\x7b", .placeholder "a", .literal "\x7d"] := by
  decide +kernel

end Template

end Grimoire
