import Grimoire.Source.Locator
import Grimoire.Text.Case
import Grimoire.Text.Utf8

/-!
# Addresses of documents

A web address has a scheme, a place, a path, and perhaps a query and a fragment. It is asked for in its
usual form: scheme and place in small letters, no port that the scheme implies, no dots in the path, and
escapes for all that may not stand as it is. A location is an address, or a part of one that is seen from
another address.

Main statements: `Address.escape_eq_self` (what may stand as it is stays) and `Address.resolve_nil` (an
empty location leads nowhere else).
-/

namespace Grimoire.Source.Address

/-- Whether a code point may stand as it is, if those in `others` may not. -/
def isBare (others : List Char) : CodePoint → Bool := CodePoint.satisfies fun c =>
  0x20 < c.toNat && c.toNat < 0x7F && !others.contains c

/-- The escape of a code point: its bytes in capital hexadecimal digits. -/
def escapeOf (c : CodePoint) : Text :=
  let capital (c : CodePoint) : CodePoint := (c.toChar?.map fun c => .scalar c.toUpper).getD c
  ((Utf8.encode [c]).getD []).flatMap fun b => "%" ++ (Text.hex 2 b.toNat).map capital

/-- Escapes all code points that may not stand as they are. -/
def escape (others : List Char) (t : Text) : Text :=
  t.flatMap fun c => if isBare others c then [c] else escapeOf c

/-- What stands before the path of a web address: the scheme and the place. -/
def origin (url : Text) : Text :=
  let (scheme, rest) := Locator.splitScheme url
  scheme ++ "://" ++ Locator.place rest

/-- What stands behind the place of a web address. -/
def tailOf (url : Text) : Text := url.drop (origin url).length

/-- A text without query and fragment. -/
def beforeQuery (t : Text) : Text := t.takeWhile fun c => c ≠ .scalar '?' ∧ c ≠ .scalar '#'

/-- A text without fragment. -/
def beforeFragment (t : Text) : Text := t.takeWhile (· ≠ .scalar '#')

/-- The path of a web address. -/
def pathOf (url : Text) : Text := beforeQuery (tailOf url)

/-- The segments of a path below the root. -/
def segments (path : Text) : List Text := Text.splitOn '/' (Text.dropHead "/" path)

/-- Segments without dots: a dot stays, two dots go up. -/
def withoutDots (segments : List Text) : List Text :=
  let step (done : List Text) (segment : Text) : List Text :=
    if segment = "." then done else if segment = ".." then done.dropLast else done ++ [segment]
  segments.foldl step []

/-- The host of a place and what follows it, which is a port with its colon if there is one. -/
def splitPort (place : Text) : Text × Text :=
  let host := Locator.withoutUser place
  let digits := host.reverse.takeWhile (CodePoint.satisfies Char.isDigit)
  let name := host.take (host.length - digits.length)
  if name.getLast? = some (.scalar ':') then (name.dropLast, host.drop (name.length - 1)) else (host, [])

/-- A place in small letters, without the port that its scheme implies. -/
def usualPlace (scheme place : Text) : Text :=
  let (host, port) := splitPort place
  let user := place.take (place.length - (host ++ port).length)
  let implied : Text := if scheme = "https" then ":443" else ":80"
  user ++ Text.lower host ++ if port = ":" ∨ port = implied then [] else port

/-- A path without dots, each segment with its slash in front. -/
def usualPath (path : Text) : Text :=
  if path = [] then [] else (withoutDots (segments path)).flatMap fun segment => "/" ++ segment

/-- The usual form of a web address. -/
def usual (url : Text) : Text :=
  let (scheme, rest) := Locator.splitScheme url
  let tail := tailOf url
  let path := beforeQuery tail
  let query := (beforeFragment tail).drop path.length
  let fragment := tail.drop (beforeFragment tail).length
  if scheme = [] then url
  else
    scheme ++ "://" ++ usualPlace scheme (Locator.place rest)
      ++ escape "\"#<>?`\x7b\x7d".toList (usualPath path)
      ++ escape "\"#<>".toList query ++ escape "\"<>`".toList fragment

/-- A path and what follows it, without dots in the path. -/
def tidyPath (t : Text) : Text :=
  let path := beforeQuery t
  let names := segments path
  let isOpen := names.getLast? = some "." ∨ names.getLast? = some ".."
  "/" ++ Text.join "/" (withoutDots names ++ if isOpen then [[]] else []) ++ t.drop path.length

/-- The address that a location means, seen from another address. -/
def resolve (url location : Text) : Text :=
  let (scheme, rest) := Locator.splitScheme location
  if scheme ≠ [] then
    if Locator.place rest ≠ [] then location
    else
      scheme ++ "://" ++ (splitPort (Locator.place (Locator.splitScheme url).2)).1
        ++ tidyPath (Text.dropHead "//" rest)
  else
    match location with
    | [] => url
    | .scalar '/' :: .scalar '/' :: _ => (Locator.splitScheme url).1 ++ ":" ++ location
    | .scalar '/' :: _ => origin url ++ tidyPath location
    | .scalar '?' :: _ => origin url ++ pathOf url ++ location
    | .scalar '#' :: _ => beforeFragment url ++ location
    | _ => origin url ++ tidyPath (Text.join "/" ((segments (pathOf url)).dropLast ++ [location]))

/-- The address to go on with where the document at an address has gone to a location. The fragment is
kept unless the location has one. -/
def next (url location : Text) : Text :=
  let target := resolve url location
  usual (if target.contains (.scalar '#') then target
    else target ++ url.drop (beforeFragment url).length)

theorem escape_eq_self {others : List Char} {t : Text} (h : t.all (isBare others) = true) :
    escape others t = t := by
  induction t with
  | nil => rfl
  | cons c t ih =>
    rw [List.all_cons, Bool.and_eq_true] at h
    rw [escape, List.flatMap_cons, if_pos h.1, List.singleton_append]
    exact congrArg (c :: ·) (ih h.2)

theorem resolve_nil (url : Text) : resolve url [] = url := by
  have h : Locator.splitScheme [] = ([], []) := rfl
  simp [resolve, h]

end Grimoire.Source.Address
