import Mathlib.Data.List.DropRight
import Mathlib.Data.List.Forall2
import Grimoire.Console.Wrap
import Grimoire.Proofs.Text.Lines

/-!
# Wrapping shows a text

Wrapping cuts each line of a text into pieces. No piece is wider than the console, up to the blanks at
its end (`Console.fits_of_mem_pieces`), so only blanks are cut off, and the lines that are printed show
the text (`Console.shows_wrap`). This needs room: a word that is too wide is not shown where it is cut
with dots, and code points that take no cell may be lost at the end of a full line (`Console.IsKept`).
-/

namespace Grimoire

namespace Text

variable {t u : Text}

theorem prefix_trimRight (t : Text) : trimRight t <+: t := List.rdropWhile_prefix ..

@[simp]
theorem trimRight_trimRight (t : Text) : trimRight (trimRight t) = trimRight t :=
  List.rdropWhile_idempotent ..

/-- Blanks at the end do not count. -/
theorem trimRight_append_blank (t : Text) (blank : ∀ c ∈ u, isBlank c = true) :
    trimRight (t ++ u) = trimRight t := by
  rw [trimRight, List.reverse_append, List.dropWhile_append_of_pos]
  · rfl
  · simpa using blank

/-- What stands before a code point that is no blank counts. -/
theorem trimRight_append_of_mem (t : Text) (word : ∃ c ∈ u, isBlank c = false) :
    trimRight (t ++ u) = t ++ trimRight u := by
  have some : (u.reverse.dropWhile isBlank).isEmpty = false := by
    obtain ⟨c, member, dark⟩ := word
    rw [Bool.eq_false_iff, ne_eq, List.isEmpty_iff, List.dropWhile_eq_nil_iff]
    exact fun all => by simp [all c (List.mem_reverse.mpr member)] at dark
  simp [trimRight, List.dropWhile_append, some]

theorem exists_blank_append (t : Text) :
    ∃ blanks, t = trimRight t ++ blanks ∧ ∀ c ∈ blanks, isBlank c = true :=
  ⟨t.rtakeWhile isBlank, List.rdropWhile_append_rtakeWhile.symm, fun _ => List.mem_rtakeWhile_imp⟩

/-- A start of a text that loses blanks only. -/
theorem trimRight_of_prefix (start : u <+: t) (long : (trimRight t).length ≤ u.length) :
    trimRight u = trimRight t := by
  obtain ⟨blanks, whole, blank⟩ := exists_blank_append t
  obtain ⟨rest, rfl⟩ : trimRight t <+: u :=
    List.prefix_of_prefix_length_le (prefix_trimRight t) start long
  have part : rest <+: blanks := (List.prefix_append_right_inj (trimRight t)).mp (whole ▸ start)
  rw [trimRight_append_blank _ fun c member => blank c (part.subset member), trimRight_trimRight]

end Text

namespace Console

open Text

variable {limit : Nat} {overflow : Overflow} {t u : Text}

/-! ## Counting cells -/

/-- Counting goes on from what has been counted. -/
theorem foldl_cells (n : Nat) (t : Text) :
    t.foldl (fun total c => total + width c) n = n + cells t := by
  induction t generalizing n with
  | nil => rfl
  | cons c t ih => rw [cells, List.foldl_cons, List.foldl_cons, ih, ih, Nat.zero_add, Nat.add_assoc]

@[simp]
theorem cells_nil : cells [] = 0 := rfl

@[simp]
theorem cells_cons (c : CodePoint) (t : Text) : cells (c :: t) = width c + cells t := by
  rw [cells, List.foldl_cons, foldl_cells, Nat.zero_add]

@[simp]
theorem cells_append (t u : Text) : cells (t ++ u) = cells t + cells u := by
  rw [cells, List.foldl_append, foldl_cells, foldl_cells, Nat.zero_add]

theorem cells_mono (start : t <+: u) : cells t ≤ cells u := by
  obtain ⟨rest, rfl⟩ := start
  simp

theorem cells_trimRight_le (t : Text) : cells (trimRight t) ≤ cells t :=
  cells_mono (prefix_trimRight t)

/-- Where every code point takes cells, a longer start takes more. -/
theorem length_le_of_cells (wide : ∀ c ∈ u, 0 < width c) (start : t <+: u)
    (all : cells u ≤ cells t) : u.length ≤ t.length := by
  obtain ⟨rest, rfl⟩ := start
  cases rest with
  | nil => simp
  | cons c rest =>
    have some := wide c (by simp)
    rw [cells_append, cells_cons] at all
    omega

theorem cells_eq_length (single : ∀ c ∈ t, width c = 1) : cells t = t.length := by
  induction t with
  | nil => rfl
  | cons c t ih =>
    rw [List.forall_mem_cons] at single
    rw [cells_cons, single.1, ih single.2, List.length_cons, Nat.add_comm]

/-! ## Words -/

theorem drop_length_takeWhile (p : CodePoint → Bool) (t : Text) :
    t.drop (t.takeWhile p).length = t.dropWhile p := by
  have parts : t.takeWhile p ++ t.dropWhile p = t := List.takeWhile_append_dropWhile
  have dropped := congrArg (List.drop (t.takeWhile p).length) parts
  rw [List.drop_left] at dropped
  exact dropped.symm

/-- The first word starts the text and holds a code point that is no blank. Where there is none, all
are blanks. -/
theorem firstWord_cases (t : Text) :
    (firstWord t = [] ∧ ∀ c ∈ t, isBlank c = true) ∨
      firstWord t <+: t ∧ ∃ c ∈ firstWord t, isBlank c = false := by
  simp only [firstWord, drop_length_takeWhile]
  have start := List.takeWhile_append_dropWhile (p := isBlank) (l := t)
  set rest := t.dropWhile isBlank with rest_eq
  have next := List.takeWhile_append_dropWhile (p := fun c => !isBlank c) (l := rest)
  split
  · next none =>
    refine .inl ⟨rfl, ?_⟩
    rw [← List.dropWhile_eq_nil_iff, ← rest_eq]
    cases same : rest with
    | nil => rfl
    | cons c rest' =>
      -- what is left after the blanks starts with no blank, so there would be a word
      have dark : isBlank c = false := by
        have head := List.head?_dropWhile_not isBlank t
        rw [← rest_eq, same] at head
        simpa using head
      simp [same, dark] at none
  · next some =>
    refine .inr ⟨?_, ?_⟩
    · conv_rhs => rw [← start, ← next]
      rw [List.append_assoc, List.prefix_append_right_inj, List.prefix_append_right_inj]
      exact List.takeWhile_prefix _
    · obtain ⟨c, member⟩ := List.exists_mem_of_ne_nil _ (mt List.isEmpty_iff.mpr some)
      exact ⟨c, by simp [member], by simpa using List.mem_takeWhile_imp member⟩

/-- The words of a line are all of it but blanks at its end, and none of them is blank. -/
theorem wordsOf_spec (t : Text) :
    (∃ blanks, t = (wordsOf t).flatten ++ blanks ∧ ∀ c ∈ blanks, isBlank c = true) ∧
      ∀ word ∈ wordsOf t, ∃ c ∈ word, isBlank c = false := by
  induction t using wordsOf.induct with
  | case1 t word none =>
    rw [wordsOf, dif_pos none]
    rcases firstWord_cases t with ⟨-, blank⟩ | ⟨-, c, member, -⟩
    · exact ⟨⟨t, rfl, blank⟩, by simp⟩
    · exact absurd member (by simp [show firstWord t = [] from none])
  | case2 t word some ih =>
    rw [wordsOf, dif_neg some]
    rcases firstWord_cases t with ⟨none, -⟩ | ⟨start, dark⟩
    · exact absurd none some
    · obtain ⟨⟨blanks, rest, blank⟩, each⟩ := ih
      refine ⟨⟨blanks, ?_, blank⟩, List.forall_mem_cons.mpr ⟨dark, each⟩⟩
      rw [List.flatten_cons, List.append_assoc, ← rest]
      exact (List.prefix_iff_eq_append.mp start).symm

/-! ## Pieces -/

/-- A word that is folded is cut into chunks of the lengths that are given, and none of them is too
wide; the chunk that has been begun is the first one. -/
theorem foldLengths_spec (room : 2 ≤ limit) (begun : Text) (fits : cells begun ≤ limit) (t : Text) :
    ∃ chunks : List Text, chunks ≠ [] ∧ chunks.flatten = begun ++ t ∧
      foldLengths limit begun.length (cells begun) t = chunks.map List.length ∧
      ∀ chunk ∈ chunks, cells chunk ≤ limit := by
  induction t generalizing begun with
  | nil => exact ⟨[begun], by simp, by simp, rfl, by simpa using fits⟩
  | cons c t ih =>
    have narrow := width_le_two c
    rw [foldLengths]
    split
    · obtain ⟨chunks, -, whole, lengths, each⟩ := ih [c] (by simp; omega)
      exact ⟨begun :: chunks, by simp, by simp [whole], by simpa using lengths,
        List.forall_mem_cons.mpr ⟨fits, each⟩⟩
    · obtain ⟨chunks, some, whole, lengths, each⟩ := ih (begun ++ [c]) (by simp; omega)
      exact ⟨chunks, some, by simpa using whole, by simpa using lengths, each⟩

/-- The places where chunks of given lengths start, and the one where the next chunk would. -/
def startsOf (start : Nat) : List Nat → List Nat
  | [] => [start]
  | n :: lengths => start :: startsOf (start + n) lengths

theorem foldl_starts (start : Nat) (lengths : List Nat) :
    lengths.foldl (fun (starts : List Nat) n => starts ++ [starts.getLast?.getD start + n]) [start]
      = startsOf start lengths := by
  have fold (front : List Nat) (place : Nat) :
      lengths.foldl (fun (starts : List Nat) n => starts ++ [starts.getLast?.getD start + n])
        (front ++ [place]) = front ++ startsOf place lengths := by
    induction lengths generalizing front place with
    | nil => rfl
    | cons n lengths ih =>
      rw [List.foldl_cons, List.getLast?_concat, Option.getD_some, ih (front ++ [place])]
      simp [startsOf]
  exact fold [] start

/-- Cutting a text after a piece that has been begun; there is no cut at its start. -/
theorem forall_splitAfter_start {fits : Text → Prop} {first : Nat} {begun : Text} {places : List Nat}
    (piece : fits begun) (rest : ∀ piece ∈ splitAfter (first + begun.length) t places, fits piece) :
    ∀ piece ∈ splitAfter first (begun ++ t) ([first + begun.length].filter (0 < ·) ++ places),
      fits piece := by
  by_cases start : 0 < first + begun.length
  · simpa [start, splitAfter] using ⟨piece, by simpa using rest⟩
  · obtain ⟨rfl, none⟩ : first = 0 ∧ begun.length = 0 := by omega
    obtain rfl := List.length_eq_zero_iff.mp none
    simpa using rest

/-- Cutting a text at the starts of the chunks of a word. -/
theorem forall_splitAfter_chunks {fits : Text → Prop} {chunks : List Text} (first : Nat)
    {begun : Text} {places : List Nat} (piece : fits begun) (each : ∀ chunk ∈ chunks, fits chunk)
    (rest : ∀ piece ∈ splitAfter (first + begun.length + chunks.flatten.length) t places, fits piece) :
    ∀ piece ∈ splitAfter first (begun ++ (chunks.flatten ++ t))
      ((startsOf (first + begun.length) (chunks.map List.length)).filter (0 < ·) ++ places),
      fits piece := by
  induction chunks generalizing first begun with
  | nil => exact forall_splitAfter_start piece (by simpa using rest)
  | cons chunk chunks ih =>
    rw [List.forall_mem_cons] at each
    have later := ih (first + begun.length) each.1 each.2
      (by simpa [Nat.add_assoc] using rest)
    have starts : (startsOf (first + begun.length) ((chunk :: chunks).map List.length)).filter (0 < ·)
        ++ places = [first + begun.length].filter (0 < ·)
          ++ ((startsOf (first + begun.length + chunk.length) (chunks.map List.length)).filter (0 < ·)
            ++ places) := by
      rw [List.map_cons, startsOf, ← List.singleton_append, List.filter_append, List.append_assoc]
    rw [starts, List.flatten_cons, List.append_assoc]
    exact forall_splitAfter_start piece later

/-- Whether a text is not too wide, up to the blanks at its end. -/
def Fits (limit : Nat) (t : Text) : Prop := cells (trimRight t) ≤ limit

/-- A word that is folded is cut into chunks that are not too wide; the next word goes on behind the last
one. -/
theorem exists_chunks (room : 2 ≤ limit) (word : Text) :
    ∃ (front : List Text) (last : Text), front.flatten ++ last = word ∧
      foldLengths limit 0 0 word = front.map List.length ++ [last.length] ∧
      (∀ chunk ∈ front, Fits limit chunk) ∧ Fits limit last := by
  obtain ⟨chunks, some, whole, lengths, each⟩ := foldLengths_spec room [] (by simp) word
  obtain ⟨front, last, rfl⟩ := (List.eq_nil_or_concat chunks).resolve_left some
  have fits (chunk : Text) (member : chunk ∈ front.concat last) : Fits limit chunk :=
    (cells_trimRight_le chunk).trans (each chunk member)
  rw [List.concat_eq_append] at whole lengths fits
  exact ⟨front, last, by simpa using whole, by simpa using lengths,
    fun chunk member => fits chunk (List.mem_append_left _ member), fits last (by simp)⟩

/-- What is left of the words of a line is cut into pieces that are not too wide. The piece that has been
begun is the invariant: it is not too wide, and the count of its cells is the one that is kept. -/
theorem fits_of_mem_splitAfter {words : List Text} {blanks : Text} (first : Nat) {begun : Text}
    (dark : ∀ word ∈ words, ∃ c ∈ word, isBlank c = false)
    (room : ∀ word ∈ words, Fits limit word ∨ overflow = .fold ∧ 2 ≤ limit)
    (blank : ∀ c ∈ blanks, isBlank c = true) (fits : Fits limit begun) :
    ∀ piece ∈ splitAfter first (begun ++ (words.flatten ++ blanks))
      (breaks limit overflow (first + begun.length) (cells begun) words), Fits limit piece := by
  induction words generalizing first begun with
  | nil =>
    simpa [breaks, splitAfter, Fits, trimRight_append_blank _ blank] using fits
  | cons word words ih =>
    rw [List.forall_mem_cons] at dark room
    rw [breaks.eq_def, List.flatten_cons, List.append_assoc]
    dsimp only
    split
    · next enough =>
      -- the word goes on the current line
      have longer : Fits limit (begun ++ word) := by
        rw [Fits, trimRight_append_of_mem _ dark.1, cells_append]
        exact enough
      have later := ih first dark.2 room.2 longer
      simpa [Nat.add_assoc] using later
    · next tooMuch =>
      split
      · next wide =>
        -- the word is too wide for any line, so it is folded
        rcases room.1 with narrow | ⟨rfl, least⟩
        · exact absurd narrow (by rw [Fits]; omega)
        obtain ⟨front, last, rfl, lengths, each, narrow⟩ := exists_chunks least word
        have later := ih (first + begun.length + front.flatten.length) dark.2 room.2 narrow
        have cut := forall_splitAfter_chunks first fits each later
        simpa [lengths, foldl_starts, Nat.add_assoc] using cut
      · next narrow =>
        have fits_word : Fits limit word := by
          rw [Fits]
          omega
        have later := ih (first + begun.length) dark.2 room.2 fits_word
        split
        · next used =>
          simpa [used.2] using forall_splitAfter_start fits later
        · next unused =>
          -- before the first word nothing is used, and behind it something has been begun
          have used : 0 < cells begun := by omega
          have some : begun ≠ [] := by
            rintro rfl
            exact absurd used (by simp)
          have long := List.length_pos_iff.mpr some
          omega

/-! ## What is cut off -/

theorem trimRight_dropEnd (limit : Nat) (t : Text) : trimRight (dropEnd limit t) = trimRight t := by
  refine trimRight_of_prefix (List.take_prefix ..) ?_
  have short := (prefix_trimRight t).length_le
  rw [dropEnd, List.length_take]
  omega

/-- A text that is not too wide is no longer than it is wide, once blanks are dropped and where every
code point takes one cell. -/
theorem cells_dropEnd (single : ∀ c ∈ t, width c = 1) (fits : Fits limit t) :
    cells (dropEnd limit t) ≤ limit := by
  have start : dropEnd limit t <+: t := List.take_prefix ..
  have bare := (prefix_trimRight t).length_le
  rw [Fits, cells_eq_length fun c member => single c ((prefix_trimRight t).subset member)] at fits
  rw [cells_eq_length fun c member => single c (start.subset member), dropEnd, List.length_take]
  omega

/-- A start that takes as many cells as the text may take up to its blanks keeps all but blanks. -/
theorem trimRight_of_cells {total : Nat} (wide : ∀ c ∈ t, 0 < width c) (fits : Fits total t)
    (start : u <+: t) (all : total ≤ cells u) : trimRight u = trimRight t := by
  refine trimRight_of_prefix start ?_
  rcases Nat.le_total (trimRight t).length u.length with le | le
  · exact le
  · exact length_le_of_cells (fun c member => wide c ((prefix_trimRight t).subset member))
      (List.prefix_of_prefix_length_le start (prefix_trimRight t) le) (fits.trans all)

/-- The last code point of a start that takes a cell too many stands behind all that is not blank. -/
theorem trimRight_dropLast_of_cells {total : Nat} (fits : Fits total t) (start : u <+: t)
    (excess : total < cells u) : trimRight (u.dropLast ++ spaces 1) = trimRight t := by
  have most : u.dropLast <+: t := (List.dropLast_prefix _).trans start
  rw [trimRight_append_blank _ (by decide)]
  refine trimRight_of_prefix most ?_
  by_contra short
  rw [List.length_dropLast] at short
  have same : u <+: trimRight t :=
    List.prefix_of_prefix_length_le start (prefix_trimRight t) (by omega)
  have less := cells_mono same
  rw [Fits] at fits
  omega

/-- What the search for a cut keeps to. Between `low` and `high` there is a place where the cells reach
`total`: before it they are too few, behind it too many, and not by one code point that would be cut. -/
structure Brackets (total low high : Nat) (t : Text) : Prop where
  order : low < high
  bound : high ≤ t.length
  few : low = 0 ∨ cells (t.take (low + 1)) < total
  many : high = t.length ∨ total < cells (t.take (high + 1)) ∧
    ¬(cells (t.take (high + 1)) = total + 1 ∧ (t.take (high + 1)).getLast?.map width = some 2)

namespace Brackets

variable {total low high : Nat}

/-- The search goes on before a place where the cells are too many. -/
theorem before (brackets : Brackets total low high t) (room : 2 ≤ total)
    (tooMany : total < cells (t.take ((low + high) / 2 + 1)))
    (regular : ¬(cells (t.take ((low + high) / 2 + 1)) = total + 1 ∧
      (t.take ((low + high) / 2 + 1)).getLast?.map width = some 2)) :
    Brackets total low ((low + high) / 2) t := by
  have order := brackets.order
  have moves : low ≠ (low + high) / 2 := by
    intro same
    rw [← same] at tooMany
    rcases brackets.few with first | few
    · have single : cells (t.take (0 + 1)) ≤ 2 := by
        cases t with
        | nil => simp
        | cons c t => simpa using width_le_two c
      rw [first] at tooMany
      omega
    · omega
  have bound := brackets.bound
  exact ⟨by omega, by omega, brackets.few, .inr ⟨tooMany, regular⟩⟩

/-- The search goes on behind a place where the cells are too few. -/
theorem behind (brackets : Brackets total low high t)
    (tooFew : cells (t.take ((low + high) / 2 + 1)) < total) :
    Brackets total ((low + high) / 2) high t := by
  have order := brackets.order
  exact ⟨by omega, brackets.bound, .inr tooFew, brackets.many⟩

/-- From too few cells to too many it is more than one code point: one of two cells would be cut. -/
theorem moves (brackets : Brackets total low high t) (excess : total < cells t)
    (tooFew : cells (t.take ((low + high) / 2 + 1)) < total) : low ≠ (low + high) / 2 := by
  intro same
  have order := brackets.order
  have next : high = (low + high) / 2 + 1 := by omega
  rw [← next] at tooFew
  by_cases last : high < t.length
  · obtain ⟨many, irregular⟩ := brackets.many.resolve_left last.ne
    have narrow := width_le_two t[high]
    rw [List.take_succ_eq_append_getElem last, cells_append, cells_cons, cells_nil]
      at many irregular
    refine irregular ⟨by omega, ?_⟩
    rw [List.getLast?_concat, Option.map_some, Option.some.injEq]
    omega
  · rw [List.take_of_length_le (by omega)] at tooFew
    omega

end Brackets

/-- The search for a cut keeps all but blanks. -/
theorem trimRight_cutSearch {fuel total low high : Nat} (wide : ∀ c ∈ t, 0 < width c)
    (room : 2 ≤ total) (fits : Fits total t) (excess : total < cells t) (steps : high - low ≤ fuel)
    (brackets : Brackets total low high t) :
    trimRight (cutSearch fuel total low high t) = trimRight t := by
  induction fuel generalizing low high with
  | zero =>
    have order := brackets.order
    omega
  | succ fuel ih =>
    have order := brackets.order
    have start : t.take ((low + high) / 2 + 1) <+: t := List.take_prefix ..
    unfold cutSearch
    dsimp only
    split
    · next oneMore => exact trimRight_dropLast_of_cells fits start (by omega)
    split
    · next enough => exact trimRight_of_cells wide fits start enough.ge
    split
    · next regular _ tooMany => exact ih (by omega) (brackets.before room tooMany regular)
    · have tooFew : cells (t.take ((low + high) / 2 + 1)) < total := by omega
      have moves := brackets.moves excess tooFew
      exact ih (by omega) (brackets.behind tooFew)

/-- What is cut off a piece that is not too wide are blanks. -/
theorem trimRight_cut (wide : ∀ c ∈ t, 0 < width c) (room : 2 ≤ limit) (fits : Fits limit t)
    (excess : limit < cells t) : trimRight (cut limit t) = trimRight t := by
  have some : 0 < t.length := List.length_pos_iff.mpr fun none => by
    rw [none, cells_nil] at excess
    omega
  rw [cut, if_neg (by omega)]
  exact trimRight_cutSearch wide room fits excess (by omega) ⟨some, Nat.le_refl _, .inl rfl, .inl rfl⟩

/-! ## What is shown -/

/-- Whether wrapping keeps all of a line but blanks: it is not too wide, or each code point takes cells
and words are folded, or each one takes one cell and no word is too wide. -/
inductive Keeps (limit : Nat) (overflow : Overflow) (line : Text) : Prop
  | whole (fits : cells line ≤ limit)
  | folded (room : 2 ≤ limit) (wide : ∀ c ∈ line, 0 < width c) (folds : overflow = .fold)
  | broken (single : ∀ c ∈ line, width c = 1) (words : ∀ word ∈ wordsOf line, Fits limit word)

/-- Whether wrapping keeps all of a text but blanks. -/
def IsKept (limit : Nat) (overflow : Overflow) (t : Text) : Prop :=
  ∀ line ∈ (Text.lines t).map (expandTabs 0), Keeps limit overflow line

theorem IsKept.of_fits (fits : ∀ line ∈ (Text.lines t).map (expandTabs 0), cells line ≤ limit) :
    IsKept limit overflow t := fun line member => .whole (fits line member)

/-- Whether lines show a text: the lines of the text, with spaces for their tabs, are cut into pieces, and
each piece is on a line of its own, up to the blanks at its end. -/
def Shows (t : Text) (shown : List Text) : Prop :=
  ∃ pieces : List (List Text), pieces.map List.flatten = (Text.lines t).map (expandTabs 0) ∧
    List.Forall₂ (fun line piece => trimRight line = trimRight piece) shown pieces.flatten

/-- The pieces of a line. -/
def pieces (limit : Nat) (overflow : Overflow) (line : Text) : List Text :=
  splitAfter 0 line (breaks limit overflow 0 0 (wordsOf line))

theorem Fits.of_mem_wordsOf {line word : Text} (fits : cells line ≤ limit)
    (member : word ∈ wordsOf line) : Fits limit word := by
  obtain ⟨⟨blanks, whole, -⟩, -⟩ := wordsOf_spec line
  have part : cells word ≤ cells (wordsOf line).flatten := by
    obtain ⟨front, back, same⟩ := List.append_of_mem member
    rw [same]
    simp
    omega
  have all := congrArg cells whole
  rw [cells_append] at all
  exact (cells_trimRight_le word).trans (by omega)

/-- No piece of a line is wider than the console, up to the blanks at its end. -/
theorem fits_of_mem_pieces {line piece : Text} (keeps : Keeps limit overflow line)
    (member : piece ∈ pieces limit overflow line) : Fits limit piece := by
  obtain ⟨⟨blanks, whole, blank⟩, dark⟩ := wordsOf_spec line
  have room : ∀ word ∈ wordsOf line, Fits limit word ∨ overflow = .fold ∧ 2 ≤ limit := by
    intro word member
    cases keeps with
    | whole fits => exact .inl (.of_mem_wordsOf fits member)
    | folded room wide folds => exact .inr ⟨folds, room⟩
    | broken single words => exact .inl (words word member)
  have nothing : Fits limit [] := by simp [Fits, trimRight]
  have fits := fits_of_mem_splitAfter 0 dark room blank nothing
  rw [← whole] at fits
  exact fits piece member

/-- A piece is shown on its line, up to the blanks at its end. -/
theorem trimRight_place {line piece : Text} (keeps : Keeps limit overflow line)
    (member : piece ∈ pieces limit overflow line) :
    trimRight (place limit overflow .plain (dropEnd limit piece)) = trimRight piece := by
  have fits := fits_of_mem_pieces keeps member
  have inside : ∀ c ∈ piece, c ∈ line := fun c inside => by
    rw [← flatten_splitAfter 0 line (breaks limit overflow 0 0 (wordsOf line))]
    exact List.mem_flatten.mpr ⟨piece, member, inside⟩
  have start : dropEnd limit piece <+: piece := List.take_prefix ..
  rw [← trimRight_dropEnd limit piece, place, truncate.eq_def]
  split
  · rfl
  · next excess =>
    cases keeps with
    | whole narrow =>
      -- a piece of a line that is not too wide is not too wide
      have part : cells piece ≤ cells line := by
        obtain ⟨front, back, same⟩ := List.append_of_mem member
        rw [← flatten_splitAfter 0 line (breaks limit overflow 0 0 (wordsOf line))]
        have flat := congrArg (fun pieces => cells (List.flatten pieces)) same
        simp only [pieces, List.flatten_append, List.flatten_cons, cells_append] at flat
        omega
      exact absurd ((cells_mono start).trans (part.trans narrow)) excess
    | folded room wide folds =>
      subst folds
      refine trimRight_cut (fun c member => wide c (inside c (start.subset member))) room ?_ (by omega)
      rwa [Fits, trimRight_dropEnd]
    | broken single words =>
      exact absurd (cells_dropEnd (fun c member => single c (inside c member)) fits) excess

/-- Wrapping shows a text of which it keeps all but blanks. -/
theorem shows_wrap (kept : IsKept limit overflow t) :
    Shows t (wrap limit overflow .plain false t) := by
  refine ⟨((Text.lines t).map (expandTabs 0)).map (pieces limit overflow), ?_, ?_⟩
  · rw [List.map_map]
    conv_rhs => rw [← List.map_id ((Text.lines t).map (expandTabs 0))]
    exact List.map_congr_left fun line _ => flatten_splitAfter ..
  · have lines : wrap limit overflow .plain false t =
        (((Text.lines t).map (expandTabs 0)).map (pieces limit overflow)).flatten.map
          fun piece => place limit overflow .plain (dropEnd limit piece) := by
      simp [wrap, List.flatMap, List.map_flatten, pieces, Function.comp_def]
    rw [lines, List.forall₂_map_left_iff, List.forall₂_same]
    intro piece member
    obtain ⟨parts, inside, member⟩ := List.mem_flatten.mp member
    obtain ⟨line, whole, rfl⟩ := List.mem_map.mp inside
    exact trimRight_place (kept line whole) member

end Console

end Grimoire
