import Grimoire.Proofs.Book.Place
import Grimoire.Proofs.Book.Sample
import Grimoire.Proofs.Json.Limits

/-!
# Loading what is damaged

Whatever lies at a path and whatever it holds, loading notes what is wrong with it and gives a book.
Only a path that cannot be asked for and a text that is too much for the reader make it fail
(`Book.loadFrom_total`), and such a text can be written (`Book.loadFrom_brackets`).
-/

namespace Grimoire.Book

open Act

/-- Whether bytes hold an array, for a reader with some room. -/
def HoldsItems (room : Nat) (bytes : Bytes) (items : List Json) : Prop :=
  ∃ t, Utf8.decode bytes = .ok t ∧ Json.read room (Text.unixNewlines t) = .ok (.arr items)

/-- Whether bytes hold a text that is too much for a reader with some room. -/
def ExceedsReader (room : Nat) (bytes : Bytes) (error : Json.ReadError) : Prop :=
  error.IsLimit ∧
    ∃ t, Utf8.decode bytes = .ok t ∧ Json.read room (Text.unixNewlines t) = .error error

variable {room : Json.Room} {bytes : Bytes} {items : List Json} {failure : Failure} {t : Text}

theorem foundInText_eq_items :
    foundInText room t = .ok (.items items) ↔
      Json.read room (Text.unixNewlines t) = .ok (.arr items) := by
  unfold foundInText
  cases Json.read room (Text.unixNewlines t) with
  | ok v => cases v <;> simp
  | error e => cases e <;> simp

theorem foundInText_eq_error :
    foundInText room t = .error failure ↔ ∃ error : Json.ReadError, error.IsLimit ∧
      Json.read room (Text.unixNewlines t) = .error error ∧ failure = .unread error := by
  unfold foundInText
  cases Json.read room (Text.unixNewlines t) with
  | ok v => cases v <;> simp
  | error e => cases e <;> simp [Json.ReadError.IsLimit, eq_comm]

theorem found_eq_items : found room (.ok bytes) = .ok (.items items) ↔ HoldsItems room bytes items := by
  simp only [found, HoldsItems]
  cases Utf8.decode bytes with
  | ok t => simp [foundInText_eq_items]
  | error e => simp

theorem found_eq_error :
    found room (.ok bytes) = .error failure ↔
      ∃ error, ExceedsReader room bytes error ∧ failure = .unread error := by
  simp only [found, ExceedsReader]
  cases Utf8.decode bytes with
  | ok t => simp [foundInText_eq_error, and_assoc]
  | error e => simp

/-- A text that is too much for the reader has too many brackets or digits. -/
theorem ExceedsReader.isExcessive {error : Json.ReadError} (exceeds : ExceedsReader room bytes error) :
    ∃ t, Utf8.decode bytes = .ok t ∧ Json.IsExcessive room (Text.unixNewlines t) := by
  obtain ⟨limit, t, decoded, read⟩ := exceeds
  exact ⟨t, decoded, Json.isExcessive_of_read read limit⟩

/-- The text of an array holds its elements. -/
theorem holdsItems_pretty (proper : (Json.arr items).isProper = true)
    (writable : (Json.arr items).isWritable = true)
    (shallow : (Json.arr items).levels ≤ room.1)
    (encoded : Utf8.encode (Json.pretty (.arr items)) = some bytes) : HoldsItems room bytes items := by
  refine ⟨_, Utf8.decode_encode encoded, ?_⟩
  rw [Text.unixNewlines_eq_self (pretty_noReturn _)]
  exact Json.read_pretty proper writable shallow

/-- What loading gives for the bytes of a file. -/
theorem loaded_bytes (room : Json.Room) (bytes : Bytes) :
    (∀ failure, loaded room (.ok bytes) = .error failure ↔
      ∃ error, ExceedsReader room bytes error ∧ failure = .unread error) ∧
    (∀ items, HoldsItems room bytes items → loaded room (.ok bytes) = .ok (ofItems items)) ∧
    ∀ reading, loaded room (.ok bytes) = .ok reading →
      (∃ items, HoldsItems room bytes items) ∨ reading = ⟨[], []⟩ := by
  refine ⟨fun failure => ?_, fun items holds => ?_, fun reading loads => ?_⟩
  · rw [← found_eq_error, loaded]
    cases found room (.ok bytes) with
    | error failure => simp
    | ok found => cases found <;> simp
  · simp only [loaded, found_eq_items.mpr holds]
  · unfold loaded at loads
    split at loads
    · exact absurd loads (by simp)
    · next items found => exact .inl ⟨items, found_eq_items.mp found⟩
    · exact .inr (Except.ok.inj loads).symm

/-- Loading changes nothing but the log, and gives a book whatever lies at the path: the elements of
an array, and an empty book for anything else. It fails exactly where the path cannot be asked for, which
is where it has a null character or a name without bytes, or where the file holds a text that is too much
for the reader, and such a text has more brackets, or more digits in a row, than may be. -/
theorem loadFrom_total (p : Path) (env : Env) (s : State) :
    s.Logs ((loadFrom p).run env s).2 ∧
    (∀ failure, ((loadFrom p).run env s).1 = .error failure ↔
      (∃ o, Disk.refusal? p = some o ∧ failure = .disk ⟨o, p⟩) ∨
        ∃ bytes error, s.disk.fileAt env.here p = some bytes ∧
          ExceedsReader env.rooms.book bytes error ∧ failure = .unread error) ∧
    (Disk.refusal? p = none ↔ ∀ name ∈ p.names,
      Name.isNameable name = true ∧ CodePoint.scalar '\x00' ∉ name) ∧
    (∀ bytes error, ExceedsReader env.rooms.book bytes error →
      ∃ t, Utf8.decode bytes = .ok t ∧
        Json.IsExcessive env.rooms.book (Text.unixNewlines t)) ∧
    ∀ reading, ((loadFrom p).run env s).1 = .ok reading →
      (∀ bytes items, s.disk.fileAt env.here p = some bytes →
        HoldsItems env.rooms.book bytes items → reading = ofItems items) ∧
      ((∀ bytes items, s.disk.fileAt env.here p = some bytes →
        ¬HoldsItems env.rooms.book bytes items) → reading = ⟨[], []⟩) := by
  obtain ⟨outcome, logs⟩ := run_loadFrom p env s
  rw [outcome, loaded_contentAt]
  refine ⟨logs, ?_, ?_, fun bytes error exceeds => exceeds.isExcessive, ?_⟩
  · intro failure
    cases file : s.disk.fileAt env.here p with
    | none => cases Disk.refusal? p <;> simp [eq_comm]
    | some bytes =>
      obtain ⟨r, located, -⟩ := Disk.fileAt_eq_some.mp file
      simpa [(Disk.locate_eq_ok.mp located).1] using (loaded_bytes env.rooms.book bytes).1 failure
  · rw [Disk.refusal?_eq_none_iff, List.all_eq_true, List.any_eq_false, ← forall₂_and]
    simp
  · intro reading loads
    cases file : s.disk.fileAt env.here p with
    | none =>
      rw [file] at loads
      cases refused : Disk.refusal? p with
      | some o =>
        rw [refused] at loads
        exact absurd loads (by simp)
      | none =>
        rw [refused] at loads
        exact ⟨by simp, fun _ => (Except.ok.inj loads).symm⟩
    | some bytes =>
      rw [file] at loads
      obtain ⟨-, arrays, others⟩ := loaded_bytes env.rooms.book bytes
      refine ⟨?_, fun none => ?_⟩
      · rintro _ items ⟨⟩ holds
        exact Except.ok.inj (loads.symm.trans (arrays items holds))
      · rcases others reading loads with ⟨items, holds⟩ | empty
        · exact absurd holds (none bytes items rfl)
        · exact empty

/-- A text is too much for the reader that starts with more opening brackets than may be open. -/
theorem exceedsReader_append {n : Nat} {rest : Text} (many : room.1 < n)
    (encodable : rest.isEncodable = true) (plain : ∀ c ∈ rest, c ≠ .scalar '\r') :
    ∃ bytes, Utf8.encode (List.replicate n (.scalar '[') ++ rest) = some bytes ∧
      ExceedsReader room bytes (.tooDeep .array) := by
  have encodable : Text.isEncodable (List.replicate n (.scalar '[') ++ rest) = true := by
    rw [Text.isEncodable, List.all_append, ← Text.isEncodable, ← Text.isEncodable, encodable]
    simp [Text.isEncodable, CodePoint.isScalar]
  obtain ⟨bytes, encoded⟩ := encode_eq_some encodable
  have plain : ∀ c ∈ List.replicate n (CodePoint.scalar '[') ++ rest, c ≠ .scalar '\r' := by
    intro c member
    rcases List.mem_append.mp member with bracket | behind
    · rw [List.eq_of_mem_replicate bracket]
      decide
    · exact plain c behind
  refine ⟨bytes, encoded, trivial, _, Utf8.decode_encode encoded, ?_⟩
  obtain ⟨k, rfl⟩ := Nat.exists_eq_add_of_le (Nat.succ_le_of_lt many)
  rw [Text.unixNewlines_eq_self plain, ← List.replicate_append_replicate, List.append_assoc]
  exact Json.read_brackets _ _

/-- Nothing but opening brackets, more of them than may be open, is too much for the reader. -/
theorem exceedsReader_brackets {n : Nat} (many : room.1 < n) :
    ∃ bytes, Utf8.encode (List.replicate n (.scalar '[')) = some bytes ∧
      ExceedsReader room bytes (.tooDeep .array) := by
  rw [← List.append_nil (List.replicate n _)]
  exact exceedsReader_append many rfl (by simp)

/-- A file with a hundred thousand brackets is not loaded. -/
theorem loadFrom_brackets :
    ((loadFrom ⟨.here, ["book.json"]⟩).run Env.sample
      (State.holding (List.replicate 100000 (.scalar '[')))).1
        = .error (.unread (.tooDeep .array)) := by
  obtain ⟨bytes, encoded, exceeds⟩ :=
    @exceedsReader_brackets Env.sample.rooms.book 100000 (by decide)
  rw [(run_loadFrom _ _ _).1, Disk.contentAt_of_fileAt (State.fileAt_holding encoded)]
  exact ((loaded_bytes _ _).1 _).mpr ⟨_, exceeds, rfl⟩

end Grimoire.Book
