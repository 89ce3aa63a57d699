import Grimoire.Digest.Bundle
import Grimoire.Proofs.Entries
import Grimoire.Proofs.Text.Utf8
import Mathlib.Algebra.Group.Nat.Defs

/-!
# What the digest of a bundle is taken of

The bytes that the digest of a bundle is taken of can be cut up in one way only, for each name and each
content has its length in front: no bytes can be moved from one entry to another, whatever they are. So
two bundles with the same bytes hold the same texts under the same names, and the order in which the
entries were put does not matter (`Bundle.digestInput?_inj`).
-/

namespace Grimoire

-- the power of natural numbers is that of the core library, whatever else is in scope
attribute [local instance (high)] instPowNat

/-! ## Numbers -/

theorem bigEndian_mod {width m n : Nat} (same : bigEndian width m = bigEndian width n) :
    m % 256 ^ width = n % 256 ^ width := by
  induction width with
  | zero => rw [Nat.pow_zero, Nat.mod_one, Nat.mod_one]
  | succ width ih =>
    obtain ⟨first, rest⟩ := List.cons.inj same
    have first := congrArg UInt8.toNat first
    rw [UInt8.toNat_ofNat', UInt8.toNat_ofNat'] at first
    rw [Nat.pow_succ, Nat.mod_mul, Nat.mod_mul, ih rest, first]

/-- Numbers that have room are told apart by their digits. -/
theorem bigEndian_inj {width m n : Nat} (room : m < 256 ^ width) (room' : n < 256 ^ width)
    (same : bigEndian width m = bigEndian width n) : m = n := by
  rw [← Nat.mod_eq_of_lt room, ← Nat.mod_eq_of_lt room', bigEndian_mod same]

theorem Utf8.encode_inj {t u : Text} {bytes : Bytes} (first : encode t = some bytes)
    (second : encode u = some bytes) : t = u := by
  have same := (decode_encode first).symm.trans (decode_encode second)
  exact Except.ok.inj same

namespace Bundle

/-! ## Parts -/

/-- A text can be a part of the digest: it can be written, and the number of its bytes has room. -/
def IsPart (t : Text) : Prop := ∃ bytes, Utf8.encode t = some bytes ∧ bytes.length < 2 ^ 64

theorem IsPart.isEncodable {t : Text} (short : IsPart t) : t.isEncodable = true := by
  obtain ⟨bytes, encoded, -⟩ := short
  rw [← Utf8.isSome_encode, encoded]
  rfl

theorem exists_part? {t : Text} (encodable : t.isEncodable = true) : ∃ p, part? t = some p := by
  obtain ⟨bytes, encoded⟩ :=
    Option.isSome_iff_exists.mp ((Utf8.isSome_encode t).trans encodable)
  exact ⟨_, by rw [part?, encoded, Option.map_some]⟩

/-- A part is read off the front in one way only. -/
theorem part?_append_inj {t u : Text} (short : IsPart t) (short' : IsPart u) {p q r s : Bytes}
    (first : part? t = some p) (second : part? u = some q) (same : p ++ r = q ++ s) :
    t = u ∧ r = s := by
  obtain ⟨xs, encoded, room⟩ := short
  obtain ⟨ys, encoded', room'⟩ := short'
  rw [part?, encoded] at first
  rw [part?, encoded'] at second
  obtain rfl := Option.some.inj first
  obtain rfl := Option.some.inj second
  rw [List.append_assoc, List.append_assoc] at same
  obtain ⟨lengths, same⟩ := List.append_inj same (by rw [length_bigEndian, length_bigEndian])
  obtain ⟨rfl, rest⟩ := List.append_inj same (bigEndian_inj room room' lengths)
  exact ⟨Utf8.encode_inj encoded encoded', rest⟩

theorem entryInput?_eq_some {e : Text × Text} {input : Bytes} :
    entryInput? e = some input
      ↔ ∃ p q, part? e.1 = some p ∧ part? e.2 = some q ∧ input = p ++ q := by
  simp only [entryInput?, bind, Option.bind_eq_some_iff, pure, Option.some.injEq]
  exact ⟨fun ⟨p, first, q, second, same⟩ => ⟨p, q, first, second, same.symm⟩,
    fun ⟨p, q, first, second, same⟩ => ⟨p, first, q, second, same.symm⟩⟩

/-- An entry is read off the front in one way only. -/
theorem entryInput?_append_inj {e f : Text × Text} (short : IsPart e.1 ∧ IsPart e.2)
    (short' : IsPart f.1 ∧ IsPart f.2) {p q r s : Bytes} (first : entryInput? e = some p)
    (second : entryInput? f = some q) (same : p ++ r = q ++ s) : e = f ∧ r = s := by
  obtain ⟨name, content, hName, hContent, rfl⟩ := entryInput?_eq_some.mp first
  obtain ⟨name', content', hName', hContent', rfl⟩ := entryInput?_eq_some.mp second
  rw [List.append_assoc, List.append_assoc] at same
  obtain ⟨sameName, same⟩ := part?_append_inj short.1 short'.1 hName hName' same
  obtain ⟨sameContent, same⟩ := part?_append_inj short.2 short'.2 hContent hContent' same
  exact ⟨Prod.ext sameName sameContent, same⟩

theorem entryInput?_ne_nil {e : Text × Text} : entryInput? e ≠ some [] := by
  intro empty
  obtain ⟨p, q, first, -, same⟩ := entryInput?_eq_some.mp empty
  rw [part?] at first
  obtain ⟨bytes, -, rfl⟩ := Option.map_eq_some_iff.mp first
  have long := congrArg List.length same
  simp only [List.length_append, length_bigEndian, List.length_nil] at long
  omega

/-! ## Entries -/

/-- The bytes of entries one after the other. -/
def entriesInput? (es : Entries Text) : Option Bytes := (es.mapM entryInput?).map List.flatten

theorem entriesInput?_cons_eq_some {e : Text × Text} {es : Entries Text} {input : Bytes} :
    entriesInput? (e :: es) = some input
      ↔ ∃ p rest, entryInput? e = some p ∧ entriesInput? es = some rest ∧ input = p ++ rest := by
  simp only [entriesInput?, List.mapM_cons, Option.map_eq_some_iff, bind, Option.bind_eq_some_iff,
    pure, Option.some.injEq]
  constructor
  · rintro ⟨_, ⟨p, first, ps, others, rfl⟩, rfl⟩
    exact ⟨p, _, first, ⟨ps, others, rfl⟩, rfl⟩
  · rintro ⟨p, _, first, ⟨ps, others, rfl⟩, rfl⟩
    exact ⟨p :: ps, ⟨p, first, ps, others, rfl⟩, rfl⟩

/-- Names and contents can be parts of the digest. -/
def IsShort (es : Entries Text) : Prop := ∀ e ∈ es, IsPart e.1 ∧ IsPart e.2

theorem entriesInput?_inj {es fs : Entries Text} (short : IsShort es) (short' : IsShort fs)
    {input : Bytes} (first : entriesInput? es = some input)
    (second : entriesInput? fs = some input) : es = fs := by
  -- no entry is without bytes, so the entries of one list end where those of the other do
  induction es generalizing fs input with
  | nil =>
    obtain rfl : [] = input := Option.some.inj first
    cases fs with
    | nil => rfl
    | cons f fs =>
      obtain ⟨p, rest, hf, -, same⟩ := entriesInput?_cons_eq_some.mp second
      obtain ⟨rfl, -⟩ := List.append_eq_nil_iff.mp same.symm
      exact absurd hf entryInput?_ne_nil
  | cons e es ih =>
    obtain ⟨p, rest, he, hes, rfl⟩ := entriesInput?_cons_eq_some.mp first
    cases fs with
    | nil =>
      obtain ⟨rfl, -⟩ := List.append_eq_nil_iff.mp (Option.some.inj second).symm
      exact absurd he entryInput?_ne_nil
    | cons f fs =>
      obtain ⟨q, rest', hf, hfs, same⟩ := entriesInput?_cons_eq_some.mp second
      rw [IsShort, List.forall_mem_cons] at short short'
      obtain ⟨rfl, rfl⟩ := entryInput?_append_inj short.1 short'.1 he hf same
      rw [ih short.2 short'.2 hes hfs]

theorem exists_entriesInput? {es : Entries Text}
    (encodable : ∀ e ∈ es, e.1.isEncodable = true ∧ e.2.isEncodable = true) :
    ∃ input, entriesInput? es = some input := by
  induction es with
  | nil => exact ⟨[], rfl⟩
  | cons e es ih =>
    rw [List.forall_mem_cons] at encodable
    obtain ⟨rest, others⟩ := ih encodable.2
    obtain ⟨p, name⟩ := exists_part? encodable.1.1
    obtain ⟨q, content⟩ := exists_part? encodable.1.2
    have first := entryInput?_eq_some.mpr ⟨p, q, name, content, rfl⟩
    exact ⟨_, entriesInput?_cons_eq_some.mpr ⟨p ++ q, rest, first, others, rfl⟩⟩

/-! ## Bundles -/

/-- What a digest can be taken of: each name stands for one text, and all can be written. -/
structure IsDigestible (b : Bundle) : Prop where
  distinct : b.keys.Nodup
  short : IsShort b

theorem IsDigestible.sorted {b : Bundle} (good : b.IsDigestible) : IsShort b.sorted :=
  fun e member => good.short e ((List.mergeSort_perm _ _).mem_iff.mp member)

/-- A digest can be taken of it. -/
theorem IsDigestible.exists_digestInput? {b : Bundle} (good : b.IsDigestible) :
    ∃ input, b.digestInput? = some input :=
  exists_entriesInput? fun e member =>
    ⟨(good.sorted e member).1.isEncodable, (good.sorted e member).2.isEncodable⟩

/-- The bytes of two bundles are the same exactly when the bundles hold the same texts under the same
names. -/
theorem digestInput?_inj {b b' : Bundle} (good : b.IsDigestible) (good' : b'.IsDigestible)
    {input input' : Bytes} (first : b.digestInput? = some input)
    (second : b'.digestInput? = some input') :
    input = input' ↔ ∀ name, Entries.find? name b = Entries.find? name b' := by
  rw [← Entries.sorted_eq_iff good.distinct good'.distinct]
  constructor
  · rintro rfl
    exact entriesInput?_inj good.sorted good'.sorted first second
  · intro same
    rw [digestInput?, same, ← digestInput?] at first
    exact Option.some.inj (first.symm.trans second)

end Bundle

end Grimoire
