import Grimoire.Console.Width
import Grimoire.Text.Blank

/-!
# Wrapping

A line that is too wide is broken between words. A word that is too wide for a line of its own is
folded, or cut with dots. Tabs reach to the next multiple of eight cells.

Main statements: `Console.flatten_splitAfter` (breaking a line loses nothing) and
`Console.dropEnd_of_fits` (a line that fits keeps the blanks at its end).
-/

namespace Grimoire.Console

/-- What is done with a word that is too wide for a line. -/
inductive Overflow where
  | fold
  | dots
  deriving DecidableEq

/-- How the lines of a text are placed. -/
inductive Justify where
  | plain
  | center
  | right
  deriving DecidableEq

/-- Spaces. -/
def spaces (n : Nat) : Text := List.replicate n (.scalar ' ')

/-- The cells between two tab stops. -/
def tabWidth : Nat := 8

/-- A line with spaces in the places of its tabs, given the cells before it. -/
def expandTabs (before : Nat) : Text → Text
  | [] => []
  | .scalar '\t' :: t =>
    let gap := tabWidth - before % tabWidth
    spaces gap ++ expandTabs (before + gap) t
  | c :: t => c :: expandTabs (before + width c) t

/-- The word at the start of a line, with the blanks around it; empty if there is none. -/
def firstWord (t : Text) : Text :=
  let blanks := t.takeWhile Text.isBlank
  let rest := t.drop blanks.length
  let word := rest.takeWhile fun c => !Text.isBlank c
  if word.isEmpty then [] else blanks ++ word ++ (rest.drop word.length).takeWhile Text.isBlank

theorem firstWord_length_le (t : Text) : (firstWord t).length ≤ t.length := by
  unfold firstWord
  simp only
  split
  · simp
  · have hblank := (List.takeWhile_prefix Text.isBlank (l := t)).length_le
    have hword := (List.takeWhile_prefix (fun c => !Text.isBlank c)
      (l := t.drop (t.takeWhile Text.isBlank).length)).length_le
    have hafter := (List.takeWhile_prefix Text.isBlank
      (l := (t.drop (t.takeWhile Text.isBlank).length).drop
        ((t.drop (t.takeWhile Text.isBlank).length).takeWhile fun c => !Text.isBlank c).length)).length_le
    simp only [List.length_drop, List.length_append] at *
    omega

/-- The words of a line, each with the blanks around it. -/
def wordsOf (t : Text) : List Text :=
  let word := firstWord t
  if _h : word = [] then [] else word :: wordsOf (t.drop word.length)
termination_by t.length
decreasing_by
  have hle := firstWord_length_le t
  have hpos : 0 < (firstWord t).length := List.length_pos_iff.mpr _h
  rw [List.length_drop]
  omega

/-- The lengths of the pieces into which a word is folded, given the length and the cells of the piece
that has been begun. -/
def foldLengths (limit length used : Nat) : Text → List Nat
  | [] => [length]
  | c :: t =>
    if limit < used + width c then length :: foldLengths limit 1 (width c) t
    else foldLengths limit (length + 1) (used + width c) t

/-- The places at which a line is broken, given the words that are left, where they start, and the
cells that are used on the current line. -/
def breaks (limit : Nat) (overflow : Overflow) (start used : Nat) : List Text → List Nat
  | [] => []
  | word :: rest =>
    let bare := cells (Text.trimRight word)
    let next := start + word.length
    if used + bare ≤ limit then breaks limit overflow next (used + cells word) rest
    else if limit < bare then
      match overflow with
      | .fold =>
        let lengths := foldLengths limit 0 0 word
        let last := lengths.getLast?.getD 0
        let starts := lengths.dropLast.foldl (fun (starts : List Nat) n =>
          starts ++ [starts.getLast?.getD start + n]) [start]
        starts.filter (0 < ·)
          ++ breaks limit overflow next (cells (word.drop (word.length - last))) rest
      | .dots =>
        (if 0 < start then [start] else []) ++ breaks limit overflow next (cells word) rest
    else if 0 < used ∧ 0 < start then start :: breaks limit overflow next (cells word) rest
    else breaks limit overflow next used rest

/-- Cuts a text at increasing places, given the place at which it starts. -/
def splitAfter (start : Nat) (t : Text) : List Nat → List Text
  | [] => [t]
  | place :: places =>
    t.take (place - start) :: splitAfter place (t.drop (place - start)) places

/-- The blanks at the end of a line that is too long are dropped as far as it is too long. -/
def dropEnd (limit : Nat) (t : Text) : Text :=
  let excess := t.length - limit
  t.take (t.length - min excess (t.length - (Text.trimRight t).length))

/-- The longest start of a text that takes exactly `total` cells, found by halving; a code point that
would take one cell too many becomes a space. -/
def cutSearch (fuel total low high : Nat) (t : Text) : Text :=
  match fuel with
  | 0 => t.take low
  | fuel + 1 =>
    let middle := (low + high) / 2
    let front := t.take (middle + 1)
    let size := cells front
    if size = total + 1 ∧ (front.getLast?.map width) = some 2 then front.dropLast ++ spaces 1
    else if size = total then front
    else if total < size then cutSearch fuel total low middle t
    else cutSearch fuel total middle high t

/-- A text cut to a number of cells that it exceeds. -/
def cut (total : Nat) (t : Text) : Text :=
  if total = 0 then [] else cutSearch (t.length + 1) total 0 t.length t

/-- A line cut to a number of cells. -/
def truncate (limit : Nat) (overflow : Overflow) (t : Text) : Text :=
  if cells t ≤ limit then t
  else
    match overflow with
    | .fold => cut limit t
    | .dots => cut (limit - 1) t ++ "…"

/-- A line placed on a number of cells. -/
def place (limit : Nat) (overflow : Overflow) (justify : Justify) (t : Text) : Text :=
  match justify with
  | .plain => truncate limit overflow t
  | .center =>
    let t := truncate limit overflow (Text.trimRight t)
    let left := (limit - cells t) / 2
    spaces left ++ t ++ spaces (limit - cells t - left)
  | .right =>
    let t := truncate limit overflow (Text.trimRight t)
    spaces (limit - cells t) ++ t

/-- The lines of a text on a number of cells. Lines that are kept whole are not broken. -/
def wrap (limit : Nat) (overflow : Overflow) (justify : Justify) (isWhole : Bool) (t : Text) :
    List Text :=
  (Text.lines t).flatMap fun line =>
    let line := expandTabs 0 line
    let places := if isWhole then [] else breaks limit overflow 0 0 (wordsOf line)
    (splitAfter 0 line places).map fun piece => place limit overflow justify (dropEnd limit piece)

theorem flatten_splitAfter (start : Nat) (t : Text) (places : List Nat) :
    (splitAfter start t places).flatten = t := by
  induction places generalizing start t with
  | nil => simp [splitAfter]
  | cons place places ih => simp [splitAfter, ih]

theorem dropEnd_of_fits {limit : Nat} {t : Text} (h : t.length ≤ limit) : dropEnd limit t = t := by
  simp [dropEnd, Nat.sub_eq_zero_of_le h]

end Grimoire.Console
