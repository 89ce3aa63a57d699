import Grimoire.Spell.Check
import Grimoire.Text.Quoted

/-!
# Identifiers

An identifier is sixteen bytes in hexadecimal digits, in five groups. Two places tell that the bytes are
random.

Main statement: `Identifier.isUuid_zero` (the identifier of zeros has the form that spells ask for).
-/

namespace Grimoire.Identifier

/-- The lengths of the groups, in bytes. -/
def groups : List Nat := [4, 2, 2, 2, 6]

/-- Bytes with the marks of random identifiers. -/
def marked (bytes : Bytes) : Bytes :=
  (bytes.zip (List.range bytes.length)).map fun (b, i) =>
    if i = 6 then 0x40 ||| (b &&& 0x0F) else if i = 8 then 0x80 ||| (b &&& 0x3F) else b

/-- Groups of bytes. -/
def split : List Nat → Bytes → List Bytes
  | [], _ => []
  | n :: ns, bytes => bytes.take n :: split ns (bytes.drop n)

/-- The identifier that sixteen bytes give. -/
def ofBytes (bytes : Bytes) : Text :=
  Text.join "-" ((split groups (marked bytes)).map fun group => group.flatMap fun b => Text.hex 2 b.toNat)

theorem isUuid_zero : Spell.isUuid (ofBytes (List.replicate 16 0)) = true := by decide +kernel

end Grimoire.Identifier
