/-!
# Network addresses

The numeral forms of host addresses. An IPv6 address has eight slots of four hexadecimal digits, a
run of which may be left out once, and may end in four decimal numbers. An IPv4 address in a host
name has one to four numbers, decimal, octal or hexadecimal, of which the last one fills what the
others leave.

Main statement: `Url.Address.number?_eq_none_of_nil` (nothing at all is no number).
-/

namespace Grimoire.Url.Address

-- the power of natural numbers is that of the core library, whatever else is in scope
attribute [local instance (high)] instPowNat

/-- Cuts at every occurrence of a character. -/
def splitOn (sep : Char) (s : List Char) : List (List Char) :=
  let (piece, pieces) := s.foldr
    (fun c (piece, pieces) => if c = sep then ([], piece :: pieces) else (c :: piece, pieces))
    ([], [])
  piece :: pieces

/-- The value of a digit, at most 36. -/
def digitValue (c : Char) : Nat :=
  if '0' ≤ c ∧ c ≤ '9' then c.toNat - 48
  else if 'a' ≤ c ∧ c ≤ 'z' then c.toNat - 87
  else if 'A' ≤ c ∧ c ≤ 'Z' then c.toNat - 55
  else 36

/-- The number that digits of a base stand for. -/
def digits? (base : Nat) (s : List Char) : Option Nat :=
  if s.all (digitValue · < base) then some (s.foldl (fun n c => base * n + digitValue c) 0)
  else none

/-- The number of a part of an IPv4 address; `0x` alone is zero. -/
def number? : List Char → Option Nat
  | [] => none
  | '0' :: 'x' :: s => digits? 16 s
  | '0' :: 'X' :: s => digits? 16 s
  | '0' :: c :: s => digits? 8 (c :: s)
  | s => digits? 10 s

theorem number?_eq_none_of_nil : number? [] = none := rfl

/-- The parts of a host name, without the empty one after a dot at its end. -/
def parts (host : List Char) : List (List Char) :=
  let pieces := splitOn '.' host
  if pieces.length > 1 && pieces.getLast? == some [] then pieces.dropLast else pieces

/-- Whether a host name ends in a number, so that it has to be an IPv4 address. -/
def endsInNumber (host : List Char) : Bool :=
  match (parts host).getLast? with
  | some (c :: s) => (c :: s).all Char.isDigit || (number? (c :: s)).isSome
  | _ => false

/-- Whether a host name is an IPv4 address. -/
def isIpv4 (host : List Char) : Bool :=
  match (parts host).mapM number? with
  | none => false
  | some numbers =>
    numbers.length ≤ 4 && numbers.dropLast.all (· ≤ 255)
      && (numbers.getLast?.getD 0) < 256 ^ (5 - numbers.length)

/-- Four decimal numbers up to 255, without leading zeros. -/
def isDottedQuad (s : List Char) : Bool :=
  let pieces := splitOn '.' s
  pieces.length == 4 && pieces.all fun piece =>
    piece.length ≤ 3 && piece.all Char.isDigit && piece != []
      && (piece.length == 1 || piece.head? != some '0')
      && (digits? 10 piece).any (· ≤ 255)

/-- Whether a text fills one slot of an IPv6 address. -/
def isSlot (s : List Char) : Bool :=
  1 ≤ s.length && s.length ≤ 4 && s.all fun c => digitValue c < 16

/-- The number of slots that pieces fill; the last piece may be four decimal numbers. -/
def slots? : List (List Char) → Option Nat
  | [] => some 0
  | [piece] => if isSlot piece then some 1 else if isDottedQuad piece then some 2 else none
  | piece :: rest => if isSlot piece then (slots? rest).map (· + 1) else none

/-- The pieces between colons; the empty text has none. -/
def pieces (s : List Char) : List (List Char) := if s = [] then [] else splitOn ':' s

/-- What stands before and after the first pair of colons. -/
def gap? : List Char → Option (List Char × List Char)
  | ':' :: ':' :: s => some ([], s)
  | c :: s => (gap? s).map fun (before, after) => (c :: before, after)
  | [] => none

/-- Whether a text is an IPv6 address. -/
def isIpv6 (s : List Char) : Bool :=
  match gap? s with
  | none => slots? (splitOn ':' s) == some 8
  | some (before, after) =>
    (pieces before).all isSlot
      && (slots? (pieces after)).any fun n => (pieces before).length + n ≤ 7

end Grimoire.Url.Address
