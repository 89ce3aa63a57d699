import Grimoire.Command.Run
import Grimoire.Proofs.Digest.Input
import Mathlib.Data.List.Forall2

/-!
# The digest identifies a bundle

A digest may be written in several ways (`Digest.IsSpelling`), and a bundle is accepted under each way
to write its digest. Two bundles that are accepted under one text have one digest, so they are the same
bundle unless their bytes collide (`Bundle.digest_identifies`).
-/

namespace Grimoire

/-! ## Hexadecimal digits -/

/-- A code point of ASCII that is neither a capital nor a blank. -/
def IsSmall (c : CodePoint) : Prop :=
  (c.val < 0x80 ∧ ¬(0x41 ≤ c.val ∧ c.val ≤ 0x5A)) ∧ Text.isBlank c = false

instance : DecidablePred IsSmall := fun _ => inferInstanceAs (Decidable (_ ∧ _))

/-- The value of a hexadecimal digit. -/
def digitValue (c : CodePoint) : Nat := if c.val < 0x61 then c.val - 0x30 else c.val - 0x57

theorem hex_byte : ∀ n < 256, (Text.hex 2 n).length = 2
    ∧ (Text.hex 2 n).foldl (fun v c => 16 * v + digitValue c) 0 = n
    ∧ ∀ c ∈ Text.hex 2 n, IsSmall c ∧ c ≠ .scalar 's' := by decide +kernel

theorem hex_byte_inj {a b : UInt8} (same : Text.hex 2 a.toNat = Text.hex 2 b.toNat) : a = b := by
  have value := (hex_byte a.toNat a.toNat_lt).2.1
  rw [same, (hex_byte b.toNat b.toNat_lt).2.1] at value
  exact UInt8.toNat_inj.mp value.symm

namespace Sha256

theorem hexDigits_inj {bytes bytes' : Bytes}
    (same : (bytes.flatMap fun b => Text.hex 2 b.toNat)
      = bytes'.flatMap fun b => Text.hex 2 b.toNat) : bytes = bytes' := by
  induction bytes generalizing bytes' with
  | nil =>
    cases bytes' with
    | nil => rfl
    | cons b bytes' =>
      have long := congrArg List.length same
      rw [List.flatMap_nil, List.flatMap_cons, List.length_append,
        (hex_byte b.toNat b.toNat_lt).1, List.length_nil] at long
      omega
  | cons a bytes ih =>
    cases bytes' with
    | nil =>
      have long := congrArg List.length same
      rw [List.flatMap_nil, List.flatMap_cons, List.length_append,
        (hex_byte a.toNat a.toNat_lt).1, List.length_nil] at long
      omega
    | cons b bytes' =>
      rw [List.flatMap_cons, List.flatMap_cons] at same
      have lengths := (hex_byte a.toNat a.toNat_lt).1.trans (hex_byte b.toNat b.toNat_lt).1.symm
      obtain ⟨first, rest⟩ := List.append_inj same lengths
      rw [hex_byte_inj first, ih rest]

theorem hexDigest_inj {bytes bytes' : Bytes} :
    hexDigest bytes = hexDigest bytes' ↔ digest bytes = digest bytes' :=
  ⟨hexDigits_inj, fun same => by rw [hexDigest, same, ← hexDigest]⟩

/-- The digits of a digest are small, and none of them starts the name of the method. -/
theorem isSmall_hexDigest (bytes : Bytes) :
    ∀ c ∈ hexDigest bytes, IsSmall c ∧ c ≠ .scalar 's' := by
  intro c member
  obtain ⟨b, -, member⟩ := List.mem_flatMap.mp member
  exact (hex_byte b.toNat b.toNat_lt).2.2 c member

theorem length_hexDigest (bytes : Bytes) : (hexDigest bytes).length = 64 := by
  have two : (fun b : UInt8 => (Text.hex 2 b.toNat).length) = fun _ => 2 :=
    funext fun b => (hex_byte b.toNat b.toNat_lt).1
  rw [hexDigest, List.length_flatMap, two, List.map_const', length_digest]
  rfl

theorem lower_hexDigest (bytes : Bytes) : Text.lower (hexDigest bytes) = hexDigest bytes :=
  Text.lower_eq_self fun c member => (isSmall_hexDigest bytes c member).1.1

end Sha256

/-! ## Ways to write a digest -/

namespace Digest

/-- The second code point is the first one, or the capital of it if it is a small letter of ASCII. -/
inductive IsCaseOf : CodePoint → CodePoint → Prop
  | same (c : CodePoint) : IsCaseOf c c
  | capital {c : Char} (small : c.isLower = true) : IsCaseOf (.scalar c) (.scalar c.toUpper)

/-- A text is a digest in small or capital letters, with the name of the method in front or without it,
and with any blanks around. -/
def IsSpelling (d t : Text) : Prop :=
  ∃ front body back, t = front ++ body ++ back
    ∧ (∀ c ∈ front, Text.isBlank c = true) ∧ (∀ c ∈ back, Text.isBlank c = true)
    ∧ (List.Forall₂ IsCaseOf d body ∨ List.Forall₂ IsCaseOf ("sha256:" ++ d) body)

theorem letter_capital : ∀ n < 26, let d : CodePoint := .scalar (Char.ofNat (97 + n)).toUpper
    d.val < 0x80 ∧ Text.isBlank d = false
      ∧ Text.lowerCodePoint d = .scalar (Char.ofNat (97 + n)) := by decide +kernel

/-- A small code point and its capital have the same small letter. -/
theorem IsCaseOf.lower {c d : CodePoint} (isCase : IsCaseOf c d) (small : IsSmall c) :
    d.val < 0x80 ∧ Text.isBlank d = false ∧ Text.lowerCodePoint d = c := by
  cases isCase with
  | same =>
    exact ⟨small.1.1, small.2, by rw [Text.lowerCodePoint, if_pos small.1.1, if_neg small.1.2]⟩
  | @capital c isLower =>
    have between : (decide (c.val ≥ 97) && decide (c.val ≤ 122)) = true := isLower
    rw [Bool.and_eq_true, decide_eq_true_eq, decide_eq_true_eq] at between
    have low : 97 ≤ c.toNat := UInt32.le_iff_toNat_le.mp between.1
    have high : c.toNat ≤ 122 := UInt32.le_iff_toNat_le.mp between.2
    have letter := letter_capital (c.toNat - 97) (by omega)
    rwa [Nat.add_sub_cancel' low, Char.ofNat_toNat] at letter

theorem lowerGo_of_case {t u : Text} (cases : List.Forall₂ IsCaseOf t u)
    (small : ∀ c ∈ t, IsSmall c) (inWord : Bool) (done : Text) :
    Text.lower.go inWord done u = done.reverse ++ t := by
  induction cases generalizing inWord done with
  | nil => simp [Text.lower.go]
  | @cons c d t u isCase _ ih =>
    obtain ⟨first, rest⟩ := List.forall_mem_cons.mp small
    obtain ⟨ascii, -, lowered⟩ := isCase.lower first
    have sigma : d.val ≠ 0x3A3 := by omega
    have dotted : d.val ≠ 0x130 := by omega
    simp [Text.lower.go, sigma, dotted, lowered, ih rest]

theorem isBlank_of_case {t u : Text} (cases : List.Forall₂ IsCaseOf t u)
    (small : ∀ c ∈ t, IsSmall c) : ∀ d ∈ u, Text.isBlank d = false := by
  induction cases with
  | nil => simp
  | cons isCase _ ih =>
    rw [List.forall_mem_cons] at small ⊢
    exact ⟨(isCase.lower small.1).2.1, ih small.2⟩

theorem dropWhile_isBlank {t : Text} (plain : ∀ c ∈ t, Text.isBlank c = false) (behind : Text)
    (blank : ∀ c ∈ behind, Text.isBlank c = true) :
    (behind ++ t).dropWhile Text.isBlank = t := by
  rw [List.dropWhile_append_of_pos blank]
  cases t with
  | nil => rfl
  | cons c t => exact List.dropWhile_cons_of_neg (by simp [plain c List.mem_cons_self])

theorem trim_append {front body back : Text} (before : ∀ c ∈ front, Text.isBlank c = true)
    (behind : ∀ c ∈ back, Text.isBlank c = true)
    (plain : ∀ c ∈ body, Text.isBlank c = false) (some : body ≠ []) :
    Text.trim (front ++ body ++ back) = body := by
  obtain ⟨c, rest, rfl⟩ := List.exists_cons_of_ne_nil some
  have start : (front ++ (c :: rest) ++ back).dropWhile Text.isBlank = c :: rest ++ back := by
    rw [List.append_assoc, List.dropWhile_append_of_pos before, List.cons_append]
    exact List.dropWhile_cons_of_neg (by simp [plain c List.mem_cons_self])
  rw [Text.trim, start, Text.trimRight, List.reverse_append, dropWhile_isBlank, List.reverse_reverse]
  · exact fun d member => plain d (List.mem_reverse.mp member)
  · exact fun d member => behind d (List.mem_reverse.mp member)

theorem normalize_of_case {whole body : Text} (cases : List.Forall₂ IsCaseOf whole body)
    (small : ∀ c ∈ whole, IsSmall c) (some : whole ≠ []) {front back : Text}
    (before : ∀ c ∈ front, Text.isBlank c = true) (behind : ∀ c ∈ back, Text.isBlank c = true) :
    normalize (front ++ body ++ back) = Text.dropHead "sha256:" whole := by
  have there : body ≠ [] := by
    rintro rfl
    exact some (List.forall₂_nil_right_iff.mp cases)
  rw [normalize, trim_append before behind (isBlank_of_case cases small) there, Text.lower,
    lowerGo_of_case cases small, List.reverse_nil, List.nil_append]

/-- Each way to write a digest is brought back to it. -/
theorem normalize_of_spelling {bytes : Bytes} {t : Text}
    (spelled : IsSpelling (Sha256.hexDigest bytes) t) : normalize t = Sha256.hexDigest bytes := by
  have digits := Sha256.isSmall_hexDigest bytes
  have long := Sha256.length_hexDigest bytes
  generalize Sha256.hexDigest bytes = d at digits long spelled
  have some : d ≠ [] := by
    rintro rfl
    exact absurd long (by decide)
  have small : ∀ c ∈ d, IsSmall c := fun c member => (digits c member).1
  obtain ⟨front, body, back, rfl, before, behind, cases | cases⟩ := spelled
  · rw [normalize_of_case cases small some before behind, Text.dropHead, if_neg]
    intro named
    obtain ⟨rest, rfl⟩ := List.isPrefixOf_iff_prefix.mp named
    exact (digits (.scalar 's') (List.mem_append_left rest (by decide))).2 rfl
  · have method : ∀ c ∈ Text.ofString "sha256:", IsSmall c := by decide
    have smallWhole : ∀ c ∈ Text.ofString "sha256:" ++ d, IsSmall c := by
      intro c member
      exact (List.mem_append.mp member).elim (method c) (small c)
    have someWhole : Text.ofString "sha256:" ++ d ≠ [] := by simp [some]
    have named : (Text.ofString "sha256:").isPrefixOf ("sha256:" ++ d) = true :=
      List.isPrefixOf_iff_prefix.mpr (List.prefix_append _ _)
    rw [normalize_of_case cases smallWhole someWhole before behind, Text.dropHead, if_pos named,
      List.drop_left]

end Digest

namespace Bundle

open Command

theorem digestFailure?_eq_none {b : Bundle} {input : Bytes} (taken : b.digestInput? = some input)
    (expected : Text) : digestFailure? b expected = none
      ↔ Sha256.hexDigest input = Digest.normalize expected := by
  have whole : b.digest? = some (Sha256.hexDigest input) := by rw [digest?, taken, Option.map_some]
  rw [digestFailure?, digestOf, digest, whole]
  simp only [Digest.isExpected, Sha256.lower_hexDigest, decide_eq_true_eq]
  split
  · next same => simp [same]
  · next other => simp [other]

/-- The bytes that the digests of two bundles are taken of are the same exactly when the bundles hold
the same texts under the same names. So unless these bytes collide, no text is accepted as the digest
of two bundles that differ; and each way to write the digest of a bundle is accepted for it. -/
theorem digest_identifies {b b' : Bundle} (good : b.IsDigestible) (good' : b'.IsDigestible) :
    ∃ input input', b.digestInput? = some input ∧ b'.digestInput? = some input'
      ∧ (input = input' ↔ ∀ name, Entries.find? name b = Entries.find? name b')
      ∧ ((Sha256.digest input = Sha256.digest input' → input = input') →
        ∀ expected, digestFailure? b expected = none → digestFailure? b' expected = none →
          ∀ name, Entries.find? name b = Entries.find? name b')
      ∧ ∃ d, b.digest? = some d ∧ ∀ t, Digest.IsSpelling d t → digestFailure? b t = none := by
  obtain ⟨input, taken⟩ := good.exists_digestInput?
  obtain ⟨input', taken'⟩ := good'.exists_digestInput?
  have whole : b.digest? = some (Sha256.hexDigest input) := by rw [digest?, taken, Option.map_some]
  refine ⟨input, input', taken, taken', digestInput?_inj good good' taken taken', ?_, _, whole, ?_⟩
  · intro apart expected accepted accepted'
    rw [digestFailure?_eq_none taken] at accepted
    rw [digestFailure?_eq_none taken'] at accepted'
    have same := Sha256.hexDigest_inj.mp (accepted.trans accepted'.symm)
    exact (digestInput?_inj good good' taken taken').mp (apart same)
  · intro t spelled
    rw [digestFailure?_eq_none taken, Digest.normalize_of_spelling spelled]

/-- A letter that moves from a content to the name in front of it changes the bytes. -/
theorem digestInput?_moved : ∃ input input', digestInput? [("a", "bc")] = some input
    ∧ digestInput? [("ab", "c")] = some input' ∧ input ≠ input' := by
  have part : ∀ t ∈ [Text.ofString "a", "bc", "ab", "c"], IsPart t := by
    simp only [List.forall_mem_cons]
    exact ⟨⟨_, rfl, by decide⟩, ⟨_, rfl, by decide⟩, ⟨_, rfl, by decide⟩, ⟨_, rfl, by decide⟩,
      by simp⟩
  have short : ∀ name ∈ [Text.ofString "a", "bc", "ab", "c"],
      ∀ t ∈ [Text.ofString "a", "bc", "ab", "c"], IsShort [(name, t)] := by
    intro name hName t hContent e member
    obtain rfl := List.mem_singleton.mp member
    exact ⟨part name hName, part t hContent⟩
  obtain ⟨input, input', taken, taken', same, -⟩ := digest_identifies
    ⟨by decide, short "a" (by decide) "bc" (by decide)⟩
    ⟨by decide, short "ab" (by decide) "c" (by decide)⟩
  exact ⟨input, input', taken, taken', fun equal => absurd (same.mp equal "ab") (by decide)⟩

end Bundle

end Grimoire
