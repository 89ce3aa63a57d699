import Grimoire.Url.Host

/-!
# Absolute addresses

`Url.isAbsolute` says whether a text is a complete address: a scheme, and behind it what the scheme
asks for. Web schemes need a host. A file may have one. With other schemes a host may follow two
slashes, and everything may follow a colon alone. Path, query and fragment are free.

Main statement: `Url.not_isAbsolute_nil` (nothing at all is no address).
-/

namespace Grimoire.Url

/-- What a scheme asks for. -/
inductive Kind where
  | web
  | file
  | other
  deriving DecidableEq

/-- The kind of a scheme in small letters. -/
def kind (scheme : List Char) : Kind :=
  if ["http", "https", "ws", "wss", "ftp"].any (·.toList = scheme) then .web
  else if scheme = "file".toList then .file
  else .other

/-- Controls and spaces are cut off both ends, and tabs and line ends are taken out. -/
def tidy (s : List Char) : List Char :=
  let isEdge (c : Char) : Bool := c.toNat ≤ 0x20
  let inner := ((s.dropWhile isEdge).reverse.dropWhile isEdge).reverse
  inner.filter fun c => c != '\t' && c != '\n' && c != '\r'

/-- The scheme in small letters and what follows its colon. -/
def scheme? (s : List Char) : Option (List Char × List Char) :=
  let isPart (c : Char) : Bool := c.isAlphanum || c == '+' || c == '-' || c == '.'
  match s.takeWhile isPart, s.dropWhile isPart with
  | c :: scheme, ':' :: rest =>
    if c.isAlpha then some ((c :: scheme).map Char.toLower, rest) else none
  | _, _ => none

/-- Whether a character ends the part of an address that names the host. -/
def endsAuthority (kind : Kind) (c : Char) : Bool :=
  c == '/' || c == '?' || c == '#' || (c == '\\' && kind != .other)

/-- Cuts off what stands before the last at sign: the credentials, if there is such a sign, and the
rest. -/
def credentials (authority : List Char) : Option (List Char) × List Char :=
  if authority.contains '@' then
    let host := (authority.reverse.takeWhile (· ≠ '@')).reverse
    (some (authority.take (authority.length - host.length - 1)), host)
  else (none, authority)

/-- The host and what follows it: a colon ends it unless it stands inside brackets. -/
def spanHost (inside : Bool) : List Char → List Char × List Char
  | [] => ([], [])
  | c :: s =>
    if c = ':' ∧ !inside then ([], c :: s)
    else
      let inside := if c = '[' then true else if c = ']' then false else inside
      let (host, rest) := spanHost inside s
      (c :: host, rest)

/-- Whether a text after a colon is a port; it may be empty. -/
def isPort (s : List Char) : Bool :=
  let digits := s.takeWhile (· ≠ '\\')
  digits.all Char.isDigit && ((Address.digits? 10 digits).any (· ≤ 65535))

/-- Whether a text after two slashes starts with a host that fits the scheme, with its credentials and
its port. -/
def hasAuthority (kind : Kind) (s : List Char) : Bool :=
  let authority := s.takeWhile fun c => !endsAuthority kind c
  let (user, place) := credentials authority
  let (host, port) := spanHost false place
  let portFits := port == [] || isPort (port.drop 1)
  if user == some [] && place == [] && authority.length < s.length then false
  else if host == [] then
    kind == .other && port == [] && (user == none || user == some [] || user == some [':'])
  else portFits && if kind == .other then isOpaqueHost host else isWebHost host

/-- Whether a text is a letter with a colon or a bar, the name of a drive. -/
def isDrive : List Char → Bool
  | [c, d] => c.isAlpha && (d == ':' || d == '|')
  | _ => false

/-- Whether a text after two slashes starts with the host of a file, if any. -/
def hasFileHost (s : List Char) : Bool :=
  let host := s.takeWhile fun c => !endsAuthority .file c
  host == [] || isDrive host || isWebHost host

/-- Whether a list of characters is a complete address. -/
def isAbsoluteChars (s : List Char) : Bool :=
  match scheme? (tidy s) with
  | none => false
  | some (scheme, rest) =>
    let isSlash (c : Char) : Bool := c == '/' || c == '\\'
    match kind scheme with
    | .web => hasAuthority .web (rest.dropWhile isSlash)
    | .file =>
      match rest with
      | a :: b :: s => !(isSlash a && isSlash b) || hasFileHost s
      | _ => true
    | .other =>
      match rest with
      | '/' :: '/' :: s => hasAuthority .other s
      | _ => true

/-- Whether a text is a complete address. -/
def isAbsolute (t : Text) : Bool := t.scalars?.any isAbsoluteChars

theorem not_isAbsolute_nil : isAbsolute [] = false := by decide

end Grimoire.Url
