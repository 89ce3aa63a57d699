import Grimoire.Json.Basic
import Grimoire.Text.Quoted

/-!
# JSON text

A `Layout` says how text is escaped and what stands between the parts of arrays and objects.
`Json.print` writes a value under a layout: on one line, with two spaces more on each level, or in
ASCII only. `Json.describe` is the form in which messages show a value.
-/

namespace Grimoire.Json

/-- How the parts of a value are set. -/
structure Layout where
  /-- The written form of a code point inside quotes. -/
  escape : CodePoint → Text
  /-- What stands after an opening bracket and before a closing one, by level. -/
  edge : Nat → Text
  /-- What stands after a comma, by level. -/
  gap : Nat → Text

/-- The escape of a code point that has one everywhere: the quote, the backslash and controls. -/
def escapeBasic (c : CodePoint) : Text :=
  if c = .scalar '"' then "\\\""
  else if c = .scalar '\\' then "\\\\"
  else if c = .scalar '\n' then "\\n"
  else if c = .scalar '\r' then "\\r"
  else if c = .scalar '\t' then "\\t"
  else if c = .scalar '\x0C' then "\\f"
  else if c = .scalar '\x08' then "\\b"
  else if c.val < 0x20 then "\\u" ++ Text.hex 4 c.val
  else [c]

/-- The escape that leaves only printable ASCII: one or two numbered UTF-16 units for all else. -/
def escapeAscii (c : CodePoint) : Text :=
  if c.val < 0x7F then escapeBasic c
  else if c.val < 0x10000 then "\\u" ++ Text.hex 4 c.val
  else
    let n := c.val - 0x10000
    "\\u" ++ Text.hex 4 (0xD800 + n / 0x400) ++ "\\u" ++ Text.hex 4 (0xDC00 + n % 0x400)

/-- Everything on one line. -/
def Layout.oneLine : Layout := ⟨escapeBasic, fun _ => [], fun _ => " "⟩

/-- Everything on one line, in ASCII. -/
def Layout.ascii : Layout := ⟨escapeAscii, fun _ => [], fun _ => " "⟩

/-- A line feed and the margin of a level. -/
def newLine (level : Nat) : Text :=
  .scalar '\n' :: List.replicate (2 * level) (.scalar ' ')

/-- Each item and each member on a line of its own. -/
def Layout.indented : Layout := ⟨escapeBasic, newLine, newLine⟩

/-- Numbers are positional from 0.0001 to below 10 ^ 16 and always look fractional. -/
def numberFormat : NumberFormat := ⟨-4, 16, true⟩

/-- The text of a finite number. -/
def finiteText (negative : Bool) (significand : Nat) (exponent : Int) : Text :=
  (if negative then "-" else "" : Text) ++
    if significand = 0 then ("0.0" : Text)
    else numberFormat.write (Binary64.shortest significand exponent)

/-- The text of a floating-point number. -/
def floatText : Binary64 → Text
  | .nan => "NaN"
  | .infinity negative => if negative then "-Infinity" else "Infinity"
  | .finite negative significand exponent _ => finiteText negative significand exponent

/-- A text between quotes. -/
def quote (escape : CodePoint → Text) (t : Text) : Text :=
  .scalar '"' :: (t.flatMap escape ++ [.scalar '"'])

mutual

/-- The text of a value that starts on a level. -/
def print (layout : Layout) (level : Nat) : Json → Text
  | null => "null"
  | bool b => if b then "true" else "false"
  | int n => Text.ofInt n
  | float x => floatText x
  | str t => quote layout.escape t
  | arr [] => "[]"
  | arr (v :: rest) =>
    "[" ++ layout.edge (level + 1) ++ print layout (level + 1) v ++ printItems layout level rest
  | obj [] => "\x7b\x7d"
  | obj ((k, v) :: rest) =>
    "\x7b" ++ layout.edge (level + 1) ++ quote layout.escape k ++ ": "
      ++ print layout (level + 1) v ++ printMembers layout level rest

/-- The text of the items after the first one, with the closing bracket. -/
def printItems (layout : Layout) (level : Nat) : List Json → Text
  | [] => layout.edge level ++ "]"
  | v :: rest =>
    "," ++ layout.gap (level + 1) ++ print layout (level + 1) v ++ printItems layout level rest

/-- The text of the members after the first one, with the closing brace. -/
def printMembers (layout : Layout) (level : Nat) : List (Text × Json) → Text
  | [] => layout.edge level ++ "\x7d"
  | (k, v) :: rest =>
    "," ++ layout.gap (level + 1) ++ quote layout.escape k ++ ": "
      ++ print layout (level + 1) v ++ printMembers layout level rest

end

/-- A value on one line. -/
def line (v : Json) : Text := print .oneLine 0 v

/-- A value on one line, in ASCII. -/
def asciiLine (v : Json) : Text := print .ascii 0 v

/-- A value on lines of its own. -/
def pretty (v : Json) : Text := print .indented 0 v

/-- A floating-point number in messages. -/
def describeFloat : Binary64 → Text
  | .nan => "nan"
  | .infinity negative => if negative then "-inf" else "inf"
  | .finite negative significand exponent _ => finiteText negative significand exponent

mutual

/-- A value as messages show it. -/
def describe : Json → Text
  | null => "None"
  | bool b => if b then "True" else "False"
  | int n => Text.ofInt n
  | float x => describeFloat x
  | str t => Text.quoted t
  | arr [] => "[]"
  | arr (v :: rest) => "[" ++ describe v ++ describeItems rest
  | obj [] => "\x7b\x7d"
  | obj ((k, v) :: rest) =>
    "\x7b" ++ Text.quoted k ++ ": " ++ describe v ++ describeMembers rest

/-- The items after the first one, as messages show them. -/
def describeItems : List Json → Text
  | [] => "]"
  | v :: rest => ", " ++ describe v ++ describeItems rest

/-- The members after the first one, as messages show them. -/
def describeMembers : List (Text × Json) → Text
  | [] => "\x7d"
  | (k, v) :: rest => ", " ++ Text.quoted k ++ ": " ++ describe v ++ describeMembers rest

end

/-- A value in a message that does not quote a text. -/
def describeBare : Json → Text
  | str t => t
  | v => describe v

end Grimoire.Json
