import Grimoire.Text.Quoted
import Grimoire.Url.Address

/-!
# Locators

A locator says where a document is: it is the address of a web page if it has a web scheme and names a
place behind two slashes; otherwise it is a path. A place with brackets has to hold a complete network
address, and a place may not hold other forms of the characters that end it.

Main statement: `Locator.isWeb_nil` (the empty locator is a path).
-/

namespace Grimoire

/-- What is wrong with the place of a locator. -/
inductive LocatorFault where
  | brackets
  | notAddress (host : Text)
  | ipv4InBrackets
  | futureAddress
  | otherForms (place : Text)
  deriving DecidableEq

/-- The wording of a fault. -/
def LocatorFault.message : LocatorFault → Text
  | brackets => "Invalid IPv6 URL"
  | notAddress host => Text.quoted host ++ " does not appear to be an IPv4 or IPv6 address"
  | ipv4InBrackets => "An IPv4 address cannot be in brackets"
  | futureAddress => "IPvFuture address is invalid"
  | otherForms place =>
    "netloc '" ++ place ++ "' contains invalid characters under NFKC normalization"

namespace Locator

/-- Controls and spaces are cut off the front, and tabs and line ends are taken out. -/
def tidy (t : Text) : Text :=
  (t.dropWhile (·.val ≤ 0x20)).filter fun c =>
    c ≠ .scalar '\t' ∧ c ≠ .scalar '\n' ∧ c ≠ .scalar '\r'

/-- A character of a scheme. -/
def isSchemePart : CodePoint → Bool := CodePoint.satisfies fun c =>
  c.isAlphanum || c == '+' || c == '-' || c == '.'

/-- The scheme in small letters and what follows its colon; without a scheme, nothing and all. -/
def splitScheme (t : Text) : Text × Text :=
  match t.takeWhile isSchemePart, t.dropWhile isSchemePart with
  | .scalar c :: scheme, .scalar ':' :: rest =>
    if c.isAlpha then
      ((.scalar c :: scheme).map fun c => (c.toChar?.map fun c => .scalar c.toLower).getD c, rest)
    else ([], t)
  | _, _ => ([], t)

/-- The place behind two slashes. -/
def place : Text → Text
  | .scalar '/' :: .scalar '/' :: t =>
    t.takeWhile fun c => c ≠ .scalar '/' ∧ c ≠ .scalar '?' ∧ c ≠ .scalar '#'
  | _ => []

/-- What stands before and after the first occurrence of a code point. -/
def cutAt (c : CodePoint) (t : Text) : Text × Option Text :=
  match t.dropWhile (· ≠ c) with
  | [] => (t, none)
  | _ :: after => (t.takeWhile (· ≠ c), some after)

/-- A text after the last at sign. -/
def withoutUser (t : Text) : Text := (t.reverse.takeWhile (· ≠ .scalar '@')).reverse

/-- Whether a text is an IPv6 address, perhaps with the name of a zone. -/
def isIpv6 (t : Text) : Bool :=
  let (address, zone) := cutAt '%' t
  let zoneFits := match zone with
    | none => true
    | some zone => zone ≠ [] ∧ CodePoint.scalar '%' ∉ zone
  zoneFits && address.scalars?.any Url.Address.isIpv6

/-- What is wrong with the host of a place with brackets. -/
def hostFault? (host : Text) : Option LocatorFault :=
  match host with
  | .scalar 'v' :: rest =>
    let version := rest.takeWhile (CodePoint.satisfies fun c => Url.Address.digitValue c < 16)
    match version, rest.drop version.length with
    | _ :: _, .scalar '.' :: _ :: _ => none
    | _, _ => some .futureAddress
  | host =>
    if host.scalars?.any Url.Address.isDottedQuad then some .ipv4InBrackets
    else if isIpv6 host then none
    else some (.notAddress host)

/-- What is wrong with a place. -/
def bracketFault? (place : Text) : Option LocatorFault :=
  let opens := place.contains (.scalar '[')
  let closes := place.contains (.scalar ']')
  if opens != closes then some .brackets
  else if !opens then none
  else
    match cutAt '[' (withoutUser place) with
    | (host, none) => hostFault? (cutAt ':' host).1
    | (_ :: _, some _) => some .brackets
    | ([], some bracketed) =>
      match cutAt ']' bracketed with
      | (host, some (c :: _)) => if c = .scalar ':' then hostFault? host else some .brackets
      | (host, _) => hostFault? host

/-- Other forms of the characters that end a place or divide it. -/
def dividerForms : List Nat :=
  [0x2047, 0x2048, 0x2049, 0x2100, 0x2101, 0x2105, 0x2106, 0x2A74, 0xFE13, 0xFE16, 0xFE55, 0xFE56,
    0xFE5F, 0xFE6B, 0xFF03, 0xFF0F, 0xFF1A, 0xFF1F, 0xFF20]

/-- What is wrong with a place. -/
def placeFault? (place : Text) : Option LocatorFault :=
  match bracketFault? place with
  | some fault => some fault
  | none => if place.any fun c => dividerForms.contains c.val then some (.otherForms place) else none

/-- Whether a locator is the address of a web page. -/
def isWeb (t : Text) : Except LocatorFault Bool :=
  let (scheme, rest) := splitScheme (tidy t)
  let place := place rest
  match placeFault? place with
  | some fault => .error fault
  | none => .ok ((scheme = "http" ∨ scheme = "https") ∧ place ≠ [])

theorem isWeb_nil : isWeb [] = .ok false := rfl

end Locator

end Grimoire
