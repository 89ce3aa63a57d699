import Grimoire.Book.File
import Grimoire.Proofs.Entries
import Grimoire.Proofs.Spell.Wire
import Grimoire.Proofs.Text.Lines
import Grimoire.Proofs.Text.Utf8

/-!
# Reading a written book

A book is lawful if its spells stand under their own identifiers, each under another one, and came
out of checks. What is read is lawful (`Book.isLawful_ofItems`), and what is written of a lawful
book reads back as the book with its spells in normal form (`Book.found_text`, `Book.ofItems_wires`).
-/

namespace Grimoire.Book

/-- Whether spells stand under their own identifiers, each under another one, and came out of
checks. -/
structure IsLawful (book : Book) : Prop where
  own : ∀ e ∈ book, e.1 = e.2.id
  distinct : (Entries.keys book).Nodup
  checked : ∀ e ∈ book, e.2.IsChecked

/-- The book with its spells in their normal form. -/
def normal (book : Book) : Book := book.map fun e => (e.1, e.2.normal)

/-- The wire forms of the spells in order. -/
def wires (book : Book) : List Json := (Entries.values book).map Spell.wire

theorem keys_normal (book : Book) : Entries.keys (normal book) = Entries.keys book := by
  simp [normal, Entries.keys, Function.comp_def]

theorem wires_normal (book : Book) : wires (normal book) = wires book := by
  simp [normal, wires, Entries.values, Function.comp_def, Spell.normal_wire]

theorem isLawful_nil : IsLawful [] :=
  ⟨fun _ member => absurd member (by simp), List.nodup_nil, fun _ member => absurd member (by simp)⟩

theorem IsLawful.normal {book : Book} (lawful : IsLawful book) : IsLawful (normal book) := by
  refine ⟨?_, (keys_normal book).symm ▸ lawful.distinct, ?_⟩
  · rintro f member
    obtain ⟨e, inside, rfl⟩ := List.mem_map.mp member
    exact lawful.own e inside
  · rintro f member
    obtain ⟨e, inside, rfl⟩ := List.mem_map.mp member
    exact (lawful.checked e inside).normal

/-! ## Reading -/

theorem readItems_wires (done book : Book) (position : Nat) (rejected : List (Nat × Nat))
    (own : ∀ e ∈ book, e.1 = e.2.id) (distinct : (Entries.keys (done ++ book)).Nodup)
    (checked : ∀ e ∈ book, e.2.IsChecked) :
    readItems ⟨done, rejected⟩ position (wires book) = ⟨done ++ normal book, rejected⟩ := by
  induction book generalizing done position with
  | nil => simp [wires, Entries.values, readItems, normal]
  | cons e book ih =>
    obtain ⟨k, s⟩ := e
    rw [List.forall_mem_cons] at own checked
    obtain rfl : k = s.id := own.1
    have fresh : s.id ∉ Entries.keys done := by
      simp only [Entries.keys, List.map_append, List.map_cons] at distinct
      exact fun member => List.disjoint_of_nodup_append distinct member (by simp)
    have read : Reading.step ⟨done, rejected⟩ position s.wire
        = ⟨done ++ [(s.id, s.normal)], rejected⟩ := by
      have put := Entries.put_of_notMem fresh s.normal
      simp only [Reading.step, Spell.check_wire checked.1.rules.1, add]
      exact congrArg (Reading.mk · rejected) put
    have last := ih (done ++ [(s.id, s.normal)]) (position + 1) own.2
      (by simpa [Entries.keys] using distinct) checked.2
    change readItems (Reading.step ⟨done, rejected⟩ position s.wire) (position + 1) (wires book) = _
    rw [read, last, List.append_assoc]
    rfl

/-- The wire forms of a lawful book are all read, under the same identifiers and in the same order.
-/
theorem ofItems_wires {book : Book} (lawful : IsLawful book) :
    ofItems (wires book) = ⟨normal book, []⟩ :=
  readItems_wires [] book 0 [] lawful.own lawful.distinct lawful.checked

theorem IsLawful.add {book : Book} (lawful : IsLawful book) {s : Spell} (checked : s.IsChecked) :
    IsLawful (add s book) := by
  refine ⟨?_, Entries.nodup_keys_put lawful.distinct, ?_⟩
  · intro e member
    rcases Entries.mem_put member with rfl | member
    · rfl
    · exact lawful.own e member
  · intro e member
    rcases Entries.mem_put member with rfl | member
    · exact checked
    · exact lawful.checked e member

theorem isLawful_readItems {reading : Reading} (lawful : IsLawful reading.book) (position : Nat)
    {items : List Json} (proper : ∀ item ∈ items, item.isProper = true) :
    IsLawful (readItems reading position items).book := by
  induction items generalizing reading position with
  | nil => exact lawful
  | cons item items ih =>
    rw [List.forall_mem_cons] at proper
    refine ih ?_ _ proper.2
    rw [Reading.step]
    split
    · next s valid => exact lawful.add ⟨item, proper.1, valid⟩
    · exact lawful

/-- What is read from an array is lawful. -/
theorem isLawful_ofItems {items : List Json} (proper : (Json.arr items).isProper = true) :
    IsLawful (ofItems items).book := by
  rw [Json.isProper, Json.isProperItems_eq, List.all_eq_true] at proper
  exact isLawful_readItems isLawful_nil 0 proper

/-! ## Writing -/

theorem mapM_wire? {book : Book} {wires : List Json}
    (h : (Entries.values book).mapM Spell.wire? = .ok wires) :
    wires = Book.wires book ∧ ∀ e ∈ book, e.2.isWirable = true := by
  induction book generalizing wires with
  | nil =>
    obtain rfl : [] = wires := Except.ok.inj h
    exact ⟨rfl, fun e member => absurd member (by simp)⟩
  | cons e book ih =>
    rw [Entries.values, List.map_cons, List.mapM_cons] at h
    cases first : e.2.wire? with
    | error failure => exact absurd h (by simp [first, bind, Except.bind])
    | ok v =>
      cases rest : (Entries.values book).mapM Spell.wire? with
      | error failure =>
        rw [Entries.values] at rest
        exact absurd h (by simp [first, rest, bind, Except.bind])
      | ok vs =>
        have whole := rest
        rw [Entries.values] at rest
        obtain rfl : v :: vs = wires := by
          simpa [first, rest, bind, Except.bind, pure, Except.pure] using h
        obtain ⟨wirable, rfl⟩ := Spell.wire?_eq_ok_iff.mp first
        obtain ⟨rfl, others⟩ := ih whole
        exact ⟨rfl, List.forall_mem_cons.mpr ⟨wirable, others⟩⟩

/-- What the text of a book is, and when there is one. -/
theorem text_eq_ok {book : Book} {t : Text} (h : text book = .ok t) :
    (∀ e ∈ book, e.2.isWirable = true) ∧ (Json.arr (wires book)).isWritable = true ∧
      t = Json.pretty (.arr (wires book)) := by
  unfold text at h
  split at h
  · exact absurd h (by simp)
  · next ws found =>
    obtain ⟨rfl, wirable⟩ := mapM_wire? found
    split at h
    · next writable => exact ⟨wirable, writable, (Except.ok.inj h).symm⟩
    · exact absurd h (by simp)

theorem mapM_wire?_eq {book : Book} (wirable : ∀ e ∈ book, e.2.isWirable = true) :
    (Entries.values book).mapM Spell.wire? = .ok (wires book) := by
  induction book with
  | nil => rfl
  | cons e book ih =>
    rw [List.forall_mem_cons] at wirable
    have first : e.2.wire? = .ok e.2.wire := Spell.wire?_eq_ok_iff.mpr ⟨wirable.1, rfl⟩
    have rest := ih wirable.2
    rw [Entries.values] at rest ⊢
    rw [List.map_cons, List.mapM_cons, first, rest]
    rfl

/-- What normal forms leave out does not show in the text. -/
theorem text_normal {book : Book} {t : Text} (h : text book = .ok t) :
    text (normal book) = .ok t := by
  obtain ⟨wirable, writable, rfl⟩ := text_eq_ok h
  have wirable' : ∀ e ∈ normal book, e.2.isWirable = true := by
    intro f member
    obtain ⟨e, inside, rfl⟩ := List.mem_map.mp member
    exact Spell.isWirable_normal (wirable e inside)
  rw [text, mapM_wire?_eq wirable', wires_normal]
  simp only [writable, if_true]

theorem levels_wires {book : Book} (wirable : ∀ e ∈ book, e.2.isWirable = true)
    (room : Json.Room) : (Json.arr (wires book)).levels ≤ room.1 := by
  have items : ∀ v ∈ wires book, v.levels ≤ Spell.wireDepth + 1 := by
    intro v member
    obtain ⟨spell, stored, rfl⟩ := List.mem_map.mp member
    obtain ⟨e, there, rfl⟩ := List.mem_map.mp stored
    exact Spell.levels_wire (Spell.isShallow_of_isWirable (wirable e there))
  have few : Spell.wireDepth + 1 + 1 ≤ 300 := by decide
  exact (Json.levels_arr_le items).trans (few.trans room.2)

theorem encode_eq_some {t : Text} (encodable : t.isEncodable = true) :
    ∃ bytes, Utf8.encode t = some bytes :=
  Option.isSome_iff_exists.mp ((Utf8.isSome_encode t).trans encodable)

/-- A document on lines of its own has no carriage return. -/
theorem pretty_noReturn (v : Json) : ∀ c ∈ Json.pretty v, c ≠ .scalar '\r' := by
  apply Json.forall_mem_print
  apply Json.within_indented
  · decide
  · rintro c control rfl
    exact control (by decide)

/-- The text of a lawful book holds the wire forms of its spells, however it is stored. -/
theorem found_text {book : Book} (lawful : IsLawful book) {t : Text} (h : text book = .ok t)
    {bytes : Bytes} (encoded : Utf8.encode t = some bytes) (room : Json.Room) :
    found room (.ok bytes) = .ok (.items (wires book)) := by
  obtain ⟨wirable, writable, rfl⟩ := text_eq_ok h
  have proper : (Json.arr (wires book)).isProper = true := by
    rw [Json.isProper, Json.isProperItems_eq, List.all_eq_true]
    intro v member
    obtain ⟨s, value, rfl⟩ := List.mem_map.mp member
    obtain ⟨e, inside, rfl⟩ := List.mem_map.mp value
    exact Spell.isProper_wire (lawful.checked e inside).rules.2
  simp only [found, Utf8.decode_encode encoded, foundInText,
    Text.unixNewlines_eq_self (pretty_noReturn _),
    Json.read_pretty proper writable (levels_wires wirable room)]

end Grimoire.Book
