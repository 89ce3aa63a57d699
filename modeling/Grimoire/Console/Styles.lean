import Grimoire.Console.Markup
import Grimoire.Text.Case

/-!
# Simple rules for marks

Rules of a console that knows the simple styles, which are told by several names each, and one picture.
Other texts mean a style of that name, nothing is called and nothing is in the way of drawing.

Main statement: `Markup.styleName_own` (the styles of the program keep their names).
-/

namespace Grimoire.Markup

/-- The names of the simple styles in order, each with its short forms. -/
def simpleStyles : List (Text × List Text) := [
  ("bold", ["b"]), ("dim", ["d"]), ("italic", ["i"]), ("underline", ["u"]), ("blink", []),
  ("blink2", []), ("reverse", ["r"]), ("conceal", ["c"]), ("strike", ["s"]), ("underline2", ["uu"]),
  ("frame", []), ("encircle", []), ("overline", ["o"])]

/-- The words of a text. -/
def words (t : Text) : List Text :=
  let spaced := t.map fun c => if Text.isBlank c then .scalar ' ' else c
  (Text.splitOn ' ' spaced).filter (· ≠ [])

/-- The name of a style in one form: simple styles in full and in order, anything else in small
letters. -/
def styleName (t : Text) : Text :=
  let ws := (words t).map Text.lower
  let means (w : Text) (style : Text × List Text) : Bool := w = style.1 ∨ style.2.contains w
  if ws ≠ [] ∧ ws.all fun w => simpleStyles.any (means w) then
    Text.join " " ((simpleStyles.filter fun style => ws.any fun w => means w style).map Prod.fst)
  else Text.lower (Text.trim t)

/-- The one picture that has a name. -/
def simplePicture? (name : Text) : Option Text :=
  if Text.lower name = "smile" then some "😄" else none

theorem simplePicture?_eq_some {name t : Text} (found : simplePicture? name = some t) : t = "😄" := by
  unfold simplePicture? at found
  split at found
  · exact (Option.some.inj found).symm
  · cases found

theorem styleName_own : ∀ t ∈ ownStyles, styleName t = t := by decide +kernel

/-- The rules of a simple console. -/
def Rules.simple : Rules where
  style t := .ok (styleName t)
  callFault? _ := none
  drawingFault? _ _ _ _ _ := none
  picture? := simplePicture?
  style_own t own := congrArg Except.ok (styleName_own t own)
  drawn_own _ _ _ _ _ _ := rfl
  picture_brief name t found := by
    obtain rfl := simplePicture?_eq_some found
    exact Nat.le_add_left_of_le (by decide)
  picture_encodable name t found := by
    obtain rfl := simplePicture?_eq_some found
    decide

end Grimoire.Markup
