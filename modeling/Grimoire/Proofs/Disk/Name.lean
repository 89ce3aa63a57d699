import Grimoire.Disk.Basic

/-!
# Texts and names

A zero is a byte of a name exactly where it is a character of the text (`Name.zero_mem_ofText`), and a
name of low bytes has one text (`Name.eq_of_low`). So a text that is a name leads up just if it is two
dots (`Name.ofText_eq_up_iff`).
-/

namespace Grimoire

namespace Name

theorem ofText_append (t u : Text) : ofText (t ++ u) = ofText t ++ ofText u :=
  List.flatMap_append

theorem isNameable_of_isEncodable {t : Text} (encodable : t.isEncodable = true) :
    isNameable t = true := by
  refine List.all_eq_true.mpr fun c member => ?_
  have scalar := List.all_eq_true.mp encodable c member
  cases c with
  | scalar c => rfl
  | surrogate s => cases scalar

theorem nameBytes_ne_nil {c : CodePoint} (nameable : c.isNameable = true) : c.nameBytes ≠ [] := by
  cases c with
  | scalar c => exact encodeChar_ne_nil c
  | surrogate s => simp [CodePoint.nameBytes, nameable]

theorem length_ofText_le (t : Text) : (ofText t).length ≤ 4 * t.length := by
  have each (c : CodePoint) : c.nameBytes.length ≤ 4 := by
    cases c with
    | scalar c => grind [CodePoint.nameBytes, Utf8.encodeChar]
    | surrogate s =>
      rw [CodePoint.nameBytes]
      split <;> simp
  induction t with
  | nil => exact Nat.le_refl 0
  | cons c t ih =>
    have first := each c
    rw [ofText, List.flatMap_cons, ← ofText, List.length_append, List.length_cons]
    omega

/-- A low byte of a code point is all its bytes, and the code point is the character of that number. -/
theorem eq_of_mem_nameBytes {c : CodePoint} {b : UInt8} (member : b ∈ c.nameBytes)
    (low : b.toNat < 0x80) : c.nameBytes = [b] ∧ c = .scalar (Char.ofNat b.toNat) := by
  cases c with
  | scalar c =>
    obtain ⟨number, bytes⟩ := eq_of_mem_encodeChar member low
    exact ⟨bytes, by rw [← number, Char.ofNat_toNat]⟩
  | surrogate s =>
    rw [CodePoint.nameBytes] at member
    split at member
    · next nameable =>
      simp only [CodePoint.isNameable, decide_eq_true_eq] at nameable
      obtain rfl := List.mem_singleton.mp member
      rw [UInt8.toNat_ofNat', Nat.mod_eq_of_lt (by omega)] at low
      omega
    · cases member

/-- A low byte is in a name just if the character of that number is in the text. -/
theorem low_mem_ofText {t : Text} {b : UInt8} (low : b.toNat < 0x80) :
    b ∈ ofText t ↔ CodePoint.scalar (Char.ofNat b.toNat) ∈ t := by
  rw [ofText, List.mem_flatMap]
  constructor
  · rintro ⟨c, member, inside⟩
    exact (eq_of_mem_nameBytes inside low).2 ▸ member
  · refine fun member => ⟨_, member, ?_⟩
    rw [CodePoint.nameBytes, encodeChar_ofNat low]
    exact List.mem_singleton_self b

/-- A name has a zero just if its text has one. -/
theorem zero_mem_ofText {t : Text} : 0 ∈ ofText t ↔ CodePoint.scalar '\x00' ∈ t :=
  low_mem_ofText (by decide)

theorem ofText_ne_nil {t : Text} (nameable : isNameable t = true) (nonempty : t ≠ []) :
    ofText t ≠ [] := by
  obtain ⟨c, rest, rfl⟩ := List.exists_cons_of_ne_nil nonempty
  rw [isNameable, List.all_cons, Bool.and_eq_true] at nameable
  simp [ofText, nameBytes_ne_nil nameable.1]

/-- The one text of a name of low bytes. -/
theorem eq_of_low {t : Text} (nameable : isNameable t = true)
    (low : ∀ b ∈ ofText t, b.toNat < 0x80) :
    t = (ofText t).map fun b => .scalar (Char.ofNat b.toNat) := by
  induction t with
  | nil => rfl
  | cons c t ih =>
    rw [isNameable, List.all_cons, Bool.and_eq_true] at nameable
    rw [ofText, List.flatMap_cons, ← ofText] at low ⊢
    rw [List.forall_mem_append] at low
    obtain ⟨b, more, bytes⟩ := List.exists_cons_of_ne_nil (nameBytes_ne_nil nameable.1)
    have member : b ∈ c.nameBytes := bytes ▸ List.mem_cons_self
    obtain ⟨all, own⟩ := eq_of_mem_nameBytes member (low.1 b member)
    rw [all, List.singleton_append, List.map_cons, ← own, ← ih nameable.2 low.2]

/-- A text of low characters is a name of low bytes. -/
theorem low_ofText {t : Text} (low : ∀ c ∈ t, c.val < 0x80) :
    isNameable t = true ∧ ∀ b ∈ ofText t, b.toNat < 0x80 := by
  have bytes : ∀ c ∈ t, c.isNameable = true ∧ ∀ b ∈ c.nameBytes, b.toNat < 0x80 := by
    intro c member
    have small := low c member
    cases c with
    | scalar c =>
      refine ⟨rfl, ?_⟩
      rw [CodePoint.nameBytes, encodeChar_of_lt small, List.forall_mem_singleton,
        UInt8.toNat_ofNat']
      exact Nat.lt_of_le_of_lt (Nat.mod_le ..) small
    | surrogate s => exact absurd small (by simp only [CodePoint.val]; omega)
  refine ⟨List.all_eq_true.mpr fun c member => (bytes c member).1, fun b member => ?_⟩
  obtain ⟨c, inside, part⟩ := List.mem_flatMap.mp member
  exact (bytes c inside).2 b part

/-- Texts of low characters have the same bytes only if they are the same. -/
theorem ofText_inj_of_low {t u : Text} (low : ∀ c ∈ t, c.val < 0x80) (low' : ∀ c ∈ u, c.val < 0x80)
    (same : ofText t = ofText u) : t = u := by
  obtain ⟨nameable, bytes⟩ := low_ofText low
  obtain ⟨nameable', bytes'⟩ := low_ofText low'
  rw [eq_of_low nameable bytes, same, ← eq_of_low nameable' bytes']

theorem ofText_eq_up_iff {t : Text} (nameable : isNameable t = true) :
    ofText t = up ↔ t = ".." := by
  constructor
  · intro same
    have low : ∀ b ∈ ofText t, b.toNat < 0x80 := by
      intro b member
      obtain rfl : b = 0x2E := by simpa [same, up] using member
      decide
    rw [eq_of_low nameable low, same]
    decide
  · rintro rfl
    decide

theorem text_injective {name other : Name} (same : text name = text other) : name = other := by
  rw [← ofText_text name, same, ofText_text]

/-- The text of the name that a text is. Texts that are the same name have it in common. -/
def spelling (t : Text) : Text := text (ofText t)

@[simp]
theorem ofText_spelling (t : Text) : ofText (spelling t) = ofText t := ofText_text _

theorem spelling_eq_iff {t u : Text} : spelling t = spelling u ↔ ofText t = ofText u :=
  ⟨text_injective, congrArg text⟩

theorem text_ne_nil {name : Name} (nonempty : name ≠ []) : text name ≠ [] := fun empty =>
  nonempty (by rw [← ofText_text name, empty]; rfl)

theorem text_ne_up {name : Name} (other : name ≠ up) : text name ≠ ".." := fun same =>
  other (by rw [← ofText_text name, same]; decide)

end Name

namespace Disk

theorem names_ne_nil {p : Path} (nonempty : p.names ≠ []) : names p ≠ [] :=
  mt List.map_eq_nil_iff.mp nonempty

@[simp]
theorem names_pathOf (r : Route) : names (pathOf r) = r := by
  simp [names, pathOf, Function.comp_def]

theorem refusal?_eq_none_iff {p : Path} : refusal? p = none ↔
    p.names.all Name.isNameable = true ∧ p.names.any (·.contains (.scalar '\x00')) = false := by
  rw [refusal?]
  cases p.names.all Name.isNameable with
  | false => simp
  | true => cases p.names.any (·.contains (.scalar '\x00')) <;> simp

/-- A path can be asked for just if no name on it is in the way. -/
theorem refusedOn?_eq_none_iff {p : Path} : refusedOn? p = none ↔ refusal? p = none := by
  rw [refusedOn?, List.findSome?_eq_none_iff]
  constructor
  · intro each
    cases names : p.names with
    | nil => exact refusal?_eq_none_iff.mpr (by simp [names])
    | cons name rest =>
      have last := each (p.names.length - 1) (by simp [names])
      rw [Nat.sub_add_cancel (by simp [names]), List.take_length] at last
      exact Option.map_eq_none_iff.mp last
  · intro accepted n _
    obtain ⟨nameable, plain⟩ := refusal?_eq_none_iff.mp accepted
    refine Option.map_eq_none_iff.mpr (refusal?_eq_none_iff.mpr ⟨?_, ?_⟩)
    · exact List.all_eq_true.mpr fun name member =>
        List.all_eq_true.mp nameable name (List.mem_of_mem_take member)
    · exact List.any_eq_false.mpr fun name member =>
        List.any_eq_false.mp plain name (List.mem_of_mem_take member)

/-- The path of a route can be asked for unless the route has a zero. -/
theorem refusal?_pathOf (r : Route) :
    refusal? (pathOf r) = if r.any (·.contains 0) then some .nul else none := by
  have zeros : (pathOf r).names.any (·.contains (.scalar '\x00')) = r.any (·.contains 0) := by
    rw [pathOf, List.any_map]
    congr 1
    funext name
    rw [Function.comp_apply, Bool.eq_iff_iff, List.contains_iff_mem, List.contains_iff_mem,
      ← Name.zero_mem_ofText, Name.ofText_text]
  rw [refusal?, zeros]
  simp [pathOf]

theorem refusal?_pathOf_eq_none_iff {r : Route} :
    refusal? (pathOf r) = none ↔ r.any (·.contains 0) = false := by
  rw [refusal?_pathOf]
  cases r.any (·.contains 0) <;> simp

end Disk

end Grimoire
