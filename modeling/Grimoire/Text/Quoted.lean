import Grimoire.Text.Printable

/-!
# Quoted text in messages

Messages show a text between quotes. Single quotes are used, unless the text holds single quotes
and no double ones. A backslash, the quote in use and all that is not printable are escaped, so that
the quoted form is one line.
-/

namespace Grimoire.Text

/-- The last `width` hexadecimal digits of a number. -/
def hex (width n : Nat) : Text :=
  let digits := (Nat.toDigits 16 n).map CodePoint.scalar
  List.replicate (width - digits.length) (.scalar '0') ++ digits

/-- The escaped form of one code point between the quotes `mark`. -/
def quoteCodePoint (mark : Char) (c : CodePoint) : Text :=
  if c = .scalar '\\' ∨ c = .scalar mark then [.scalar '\\', c]
  else if c = .scalar '\n' then "\\n"
  else if c = .scalar '\r' then "\\r"
  else if c = .scalar '\t' then "\\t"
  else if isPrintable c then [c]
  else if c.val < 0x100 then "\\x" ++ hex 2 c.val
  else if c.val < 0x10000 then "\\u" ++ hex 4 c.val
  else "\\U" ++ hex 8 c.val

/-- The quote that a text is put in. -/
def quoteMark (t : Text) : Char :=
  if t.contains (.scalar '\'') && !t.contains (.scalar '"') then '"' else '\''

/-- A text as messages show it. -/
def quoted (t : Text) : Text :=
  let mark := quoteMark t
  .scalar mark :: (t.flatMap (quoteCodePoint mark) ++ [.scalar mark])

end Grimoire.Text
