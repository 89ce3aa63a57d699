import Grimoire.Text.CodePoint

/-!
# Paths

A path is relative, or starts at the root, and names what lies on the way. Empty names and single dots
are dropped when a path is read; two dots are kept, because what they mean depends on the disk.

Main statement: `Path.namesOf_eq_singleton` (a text without slashes that is neither empty nor a single
dot is one name).
-/

namespace Grimoire

/-- Where a path starts. Exactly two slashes are kept apart from one. -/
inductive Anchor where
  | here
  | root
  | doubleRoot
  deriving DecidableEq

/-- The text in front of the names. -/
def Anchor.text : Anchor → Text
  | here => ""
  | root => "/"
  | doubleRoot => "//"

/-- A path. -/
structure Path where
  anchor : Anchor
  names : List Text
  deriving DecidableEq

namespace Path

/-- The anchor of a text. -/
def anchorOf (t : Text) : Anchor :=
  match (t.takeWhile (· = .scalar '/')).length with
  | 0 => .here
  | 2 => .doubleRoot
  | _ => .root

/-- The names between the slashes of a text. -/
def namesOf (t : Text) : List Text :=
  (Text.splitOn '/' t).filter fun name => name ≠ [] ∧ name ≠ "."

/-- Reads a path. -/
def ofText (t : Text) : Path := ⟨anchorOf t, namesOf t⟩

/-- The text of a path. -/
def text (p : Path) : Text :=
  match p.anchor, p.names with
  | .here, [] => "."
  | anchor, names => anchor.text ++ Text.join "/" names

/-- The last name, empty if there is none. -/
def name (p : Path) : Text := p.names.getLast?.getD []

/-- The path without its last name. -/
def parent (p : Path) : Path := ⟨p.anchor, p.names.dropLast⟩

/-- The path that a text means below another path. -/
def below (p : Path) (t : Text) : Path :=
  match anchorOf t with
  | .here => ⟨p.anchor, p.names ++ namesOf t⟩
  | anchor => ⟨anchor, namesOf t⟩

/-- The length of what stands before the last dot of a name, unless the dot is at an end. -/
def stemLength (name : Text) : Nat :=
  let tail := (name.reverse.takeWhile (· ≠ .scalar '.')).length
  if tail = 0 ∨ name.length ≤ tail + 1 then name.length else name.length - tail - 1

/-- The path with another ending after the last dot of its last name. -/
def withEnding (p : Path) (ending : Text) : Path :=
  let name := p.name
  ⟨p.anchor, p.names.dropLast ++ [name.take (stemLength name) ++ ending]⟩

/-- Whether a text is a name of its own: read as a path, it is its own last name. -/
def isPlainName (t : Text) : Bool := (ofText t).name = t

theorem splitOn_eq_singleton {t : Text} (h : CodePoint.scalar '/' ∉ t) :
    Text.splitOn '/' t = [t] := by
  induction t with
  | nil => rfl
  | cons c t ih =>
    have hc : c ≠ .scalar '/' := fun e => h (by simp [e])
    have ht : CodePoint.scalar '/' ∉ t := fun m => h (List.mem_cons_of_mem _ m)
    have := ih ht
    simp only [Text.splitOn, List.foldr_cons, List.cons.injEq] at this ⊢
    simp [hc, this]

theorem namesOf_eq_singleton {t : Text} (h : CodePoint.scalar '/' ∉ t) (hne : t ≠ [])
    (hdot : t ≠ ".") : namesOf t = [t] := by
  simp [namesOf, splitOn_eq_singleton h, hne, hdot]

end Path

end Grimoire
