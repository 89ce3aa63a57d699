import Grimoire.Bundle.Basic
import Grimoire.Digest.Sha256
import Grimoire.Text.Blank

/-!
# The digest of a bundle

The digest is taken of the names and contents in the order of the names, each with its length in front.
An expected digest may be written in capitals, with blanks around it and with the name of the method in
front.

Main statement: `Bundle.part?_eq_none_iff` (a text has no part in a digest exactly when it cannot be
written).
-/

namespace Grimoire

namespace Bundle

/-- A text as bytes with their count in front, if it can be written. -/
def part? (t : Text) : Option Bytes :=
  (Utf8.encode t).map fun bytes => bigEndian 8 bytes.length ++ bytes

/-- The bytes of an entry. -/
def entryInput? (entry : Text × Text) : Option Bytes := do
  let name ← part? entry.1
  let content ← part? entry.2
  return name ++ content

/-- The bytes that the digest is taken of. -/
def digestInput? (b : Bundle) : Option Bytes := (b.sorted.mapM entryInput?).map List.flatten

/-- The digest of a bundle. -/
def digest? (b : Bundle) : Option Text := b.digestInput?.map Sha256.hexDigest

/-- The first text of a bundle that cannot be encoded, in the order of the digest. -/
def unencodable? (b : Bundle) : Option Text :=
  (b.sorted.flatMap fun (name, t) => [name, t]).find? fun t => !t.isEncodable

/-- The digest of a bundle, or where it cannot be encoded. -/
def digest (b : Bundle) : Except Utf8.EncodeError Text :=
  match b.digest? with
  | some d => .ok d
  | none => .error (Utf8.encodeError (b.unencodable?.getD []))

end Bundle

namespace Digest

/-- An expected digest without blanks, capitals and the name of the method. -/
def normalize (expected : Text) : Text := Text.dropHead "sha256:" (Text.lower (Text.trim expected))

/-- Whether a digest is the expected one. -/
def isExpected (got expected : Text) : Bool := Text.lower got = normalize expected

end Digest

theorem Bundle.part?_eq_none_iff (t : Text) : part? t = none ↔ t.isEncodable = false := by
  rw [part?, Option.map_eq_none_iff, ← Utf8.isSome_encode]
  cases Utf8.encode t <;> simp

end Grimoire
