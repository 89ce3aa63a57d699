import Grimoire.Text.Case
import Grimoire.Text.Utf8
import Grimoire.Url.Compatibility
import Grimoire.Url.Punycode

/-!
# Host names

The host of a web address is put in its plain ASCII form before it is judged: percent escapes are
undone, letters become small, other forms of characters become the plain ones, and characters that
are not shown are dropped. The host of any other address is judged as it is written.
-/

namespace Grimoire.Url

/-- The byte that two hexadecimal digits stand for. -/
def hexPair? (a b : UInt8) : Option UInt8 :=
  let high := Address.digitValue (Char.ofNat a.toNat)
  let low := Address.digitValue (Char.ofNat b.toNat)
  if high < 16 ∧ low < 16 then some (UInt8.ofNat (16 * high + low)) else none

/-- Undoes percent escapes; a percent sign that starts none stays. -/
def percentDecode : Bytes → Bytes
  | 0x25 :: a :: b :: rest =>
    match hexPair? a b with
    | some byte => byte :: percentDecode rest
    | none => 0x25 :: percentDecode (a :: b :: rest)
  | b :: rest => b :: percentDecode rest
  | [] => []

/-- Characters of which a host name in plain form can hold none. -/
def isForbidden (c : Char) : Bool :=
  c.toNat ≤ 0x20 || c.toNat == 0x7F || "#%/:<>?@[\\]^|".toList.contains c

/-- Characters that are dropped from host names. -/
def ignoredRanges : List (Nat × Nat) :=
  [(0xAD, 0xAD), (0x34F, 0x34F), (0x180B, 0x180D), (0x180F, 0x180F), (0x200B, 0x200B),
    (0x2060, 0x2060), (0x2064, 0x2064), (0xFE00, 0xFE0F), (0xFEFF, 0xFEFF), (0x1BCA0, 0x1BCA3),
    (0xE0100, 0xE01EF)]

/-- Symbols that no host name may hold, next to all that is not printable. -/
def symbolRanges : List (Nat × Nat) := forbiddenForms ++ [(0x2FF0, 0x2FFF), (0xFFFC, 0xFFFD)]

/-- The plain form of a character of a host name, if it may stand there. -/
def plain? (c : Char) : Option (List Char) :=
  let n := c.toNat
  if n < 0x80 then if isForbidden c then none else some [c.toLower]
  else if n = 0x3002 ∨ n = 0xFF61 then some ['.']
  else if Text.inRanges ignoredRanges n then some []
  else
    match asciiForm? n with
    | some c => if isForbidden c then none else some [c]
    | none =>
      if Text.inRanges symbolRanges n || !Text.isPrintable (.scalar c) then none
      else (Text.lowerCodePoint (.scalar c)).toChar?.map fun c => [c]

/-- Whether a label with the mark of Punycode stands for one that can be written in no other way. -/
def isEncodedLabel (label : List Char) : Bool :=
  match Punycode.decode? label with
  | none => false
  | some decoded => decoded.any (128 ≤ ·.toNat) && decoded.all fun c => plain? c == some [c]

/-- Whether a label of a plain host name is one. -/
def isLabel : List Char → Bool
  | 'x' :: 'n' :: '-' :: '-' :: label => isEncodedLabel label
  | _ => true

/-- Whether a text between brackets is an address. -/
def isBracketed (host : List Char) : Bool :=
  host.getLast? == some ']' && Address.isIpv6 (host.drop 1).dropLast

/-- Whether a text is the host of a web address. -/
def isWebHost (host : List Char) : Bool :=
  if host.head? == some '[' then isBracketed host
  else
    match Utf8.decode (percentDecode (host.flatMap Utf8.encodeChar)) with
    | .error _ => false
    | .ok decoded =>
      match decoded.scalars?.bind fun chars => chars.mapM plain? with
      | none => false
      | some forms =>
        let name := forms.flatten
        name != [] && (Address.splitOn '.' name).all isLabel
          && (!Address.endsInNumber name || Address.isIpv4 name)

/-- Whether a text is the host of an address of another kind. -/
def isOpaqueHost (host : List Char) : Bool :=
  if host.head? == some '[' then isBracketed host
  else !host.any fun c => "\x00\t\n\r #/:<>?@[\\]^|".toList.contains c

end Grimoire.Url
