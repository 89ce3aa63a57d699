import Grimoire.Json.Printer

/-!
# Text templates

A template is a text in which `{{key}}` stands for a value that is known only later; a key is a run
of ASCII letters, digits and underscores. `Template.segments` cuts a template into literal text and
placeholders, and `Template.expression` writes it as an expression of a generated program.

Main statement: `Template.placeholder?_length_lt` (a placeholder takes up some of the text).
-/

namespace Grimoire

/-- A part of a template. -/
inductive Segment where
  | literal (text : Text)
  | placeholder (key : Text)
  deriving DecidableEq

namespace Segment

/-- Whether the part is a placeholder. -/
def isPlaceholder : Segment → Bool
  | literal _ => false
  | placeholder _ => true

/-- The text that a part stands for in its template. -/
def source : Segment → Text
  | literal text => text
  | placeholder key => "\x7b\x7b" ++ key ++ "\x7d\x7d"

end Segment

namespace Template

/-- An ASCII letter, digit or underscore. -/
def isWord : CodePoint → Bool := CodePoint.satisfies fun c => c.isAlphanum || c == '_'

/-- The key of a placeholder at the start of a text, and what follows the placeholder. -/
def placeholder? : Text → Option (Text × Text)
  | .scalar '\x7b' :: .scalar '\x7b' :: s =>
    match s.takeWhile isWord, s.dropWhile isWord with
    | c :: key, .scalar '\x7d' :: .scalar '\x7d' :: rest => some (c :: key, rest)
    | _, _ => none
  | _ => none

theorem placeholder?_length_lt {s key rest : Text} (h : placeholder? s = some (key, rest)) :
    rest.length < s.length := by
  unfold placeholder? at h
  split at h
  · rename_i s
    split at h
    · rename_i heq
      have hle := (List.dropWhile_suffix isWord (l := s)).length_le
      rw [heq] at hle
      simp only [Option.some.injEq, Prod.mk.injEq] at h
      rw [← h.2]
      simp only [List.length_cons] at hle ⊢
      omega
    · exact absurd h (by simp)
  · exact absurd h (by simp)

/-- Literal text as a part, if there is any; the text is given in reverse. -/
def flush (reversed : Text) : List Segment :=
  if reversed.isEmpty then [] else [.literal reversed.reverse]

/-- The parts of a template from left to right. The empty template is one empty literal. -/
def segments (t : Text) : List Segment :=
  match go [] t with
  | [] => [.literal []]
  | parts => parts
where
  go (reversed : Text) (t : Text) : List Segment :=
    match t with
    | [] => flush reversed
    | c :: s =>
      match _h : placeholder? (c :: s) with
      | some (key, rest) =>
        flush reversed ++ .placeholder key :: go [] rest
      | none => go (c :: reversed) s
  termination_by t.length
  decreasing_by
    · exact placeholder?_length_lt _h
    · exact Nat.lt_succ_self _

/-- Whether a placeholder stands anywhere in a text. -/
def hasPlaceholder : Text → Bool
  | [] => false
  | c :: s => (placeholder? (c :: s)).isSome || hasPlaceholder s

/-- The keys of the placeholders that are found from left to right, each behind the one before. -/
def keys : Text → List Text
  | [] => []
  | c :: s =>
    match _h : placeholder? (c :: s) with
    | some (key, rest) => key :: keys rest
    | none => keys s
termination_by t => t.length
decreasing_by
  · exact placeholder?_length_lt _h
  · exact Nat.lt_succ_self _

end Template

namespace Script

/-- Writes the two separators that older readers of programs take for line ends by their numbers. -/
def escapeSeparators (t : Text) : Text :=
  t.flatMap fun c =>
    if c = .scalar '\u2028' then ("\\u2028" : Text)
    else if c = .scalar '\u2029' then ("\\u2029" : Text)
    else [c]

/-- A text as a literal of a generated program. -/
def literal (t : Text) : Text := escapeSeparators (Json.line (.str t))

/-- A value on lines of its own; null is written as an empty object. -/
def jsonBlock : Json → Text
  | .null => "\x7b\x7d"
  | v => Json.pretty v

/-- A value as an expression of a generated program. -/
def value (v : Json) : Text := escapeSeparators (jsonBlock v)

/-- A template as an expression of a generated program: a literal, or a call that fills the
placeholders in. -/
def expression (t : Text) : Text :=
  if (Template.segments t).any Segment.isPlaceholder then
    "interpolate(" ++ literal t ++ ", input)"
  else literal t

end Script

end Grimoire
