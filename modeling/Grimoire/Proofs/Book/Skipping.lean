import Grimoire.Proofs.Book.Changes
import Grimoire.Proofs.Book.Loading

/-!
# Elements that are passed over

The elements of an array that are no spells are counted and noted with their positions, and make no
difference to the others: each identifier keeps the place of its first spell and has its last one
(`Book.loadFrom_array`). This holds for what the reader can read. An element that is nested too
deeply is too much for it, and hides all the others (`Book.loadFrom_hidden`).
-/

namespace Grimoire.Book

open Act

/-- The spells among the elements of an array, in order. -/
def accepted (items : List Json) : List Spell :=
  items.filterMap fun item => (Spell.check item).value?

/-- Whether an element of an array is no spell. -/
def isRejected (item : Json) : Bool := (Spell.check item).value?.isNone

/-- The elements that are no spells, each with its position, counted from a given one on. -/
def rejectedFrom (position : Nat) (items : List Json) : List (Json × Nat) :=
  (items.zipIdx position).filter fun e => isRejected e.1

/-- Whether a book has spells by their identifiers: each one in the place of the first spell that has
it, with the last spell that has it. -/
structure IsIndex (spells : List Spell) (book : Book) : Prop where
  order : IsFirstSeen book.keys (spells.map Spell.id)
  latest : ∀ id, Entries.find? id book = spells.reverse.find? fun s => s.id = id

/-- Whether two arrays have the same elements in the same order but for those that are no spells. -/
inductive AlikeButRejected : List Json → List Json → Prop
  | nil : AlikeButRejected [] []
  | both (item : Json) {items items' : List Json} :
    AlikeButRejected items items' → AlikeButRejected (item :: items) (item :: items')
  | left {item : Json} {items items' : List Json} : isRejected item = true →
    AlikeButRejected items items' → AlikeButRejected (item :: items) items'
  | right {item : Json} {items items' : List Json} : isRejected item = true →
    AlikeButRejected items items' → AlikeButRejected items (item :: items')

variable {p : Path} {env : Env} {s : State} {bytes : Bytes} {items items' : List Json} {item : Json}

/-! ## Reading element by element -/

theorem accepted_cons (item : Json) (items : List Json) :
    accepted (item :: items) = (Spell.check item).value?.toList ++ accepted items := by
  rw [accepted, List.filterMap_cons]
  cases (Spell.check item).value? <;> rfl

theorem accepted_rejected (rejected : isRejected item = true) :
    accepted (item :: items) = accepted items := by
  rw [accepted_cons, Option.isNone_iff_eq_none.mp rejected]
  rfl

theorem rejectedFrom_cons (position : Nat) (item : Json) (items : List Json) :
    rejectedFrom position (item :: items)
      = if isRejected item then (item, position) :: rejectedFrom (position + 1) items
        else rejectedFrom (position + 1) items := by
  rw [rejectedFrom, List.zipIdx_cons, List.filter_cons]
  rfl

/-- What is told about an element that is no spell: its position and how many problems it has. -/
def told (e : Json × Nat) : Nat × Nat := (e.2, (Spell.check e.1).problems.length)

/-- The spells are put one after the other, whatever stands between them. -/
theorem readItems_eq (reading : Reading) (position : Nat) (items : List Json) :
    readItems reading position items = ⟨Entries.putAll reading.book (keyed (accepted items)),
      reading.rejected ++ (rejectedFrom position items).map told⟩ := by
  induction items generalizing reading position with
  | nil => simp [readItems, accepted, keyed, Entries.putAll, rejectedFrom]
  | cons item items ih =>
    rw [readItems, ih, Reading.step, rejectedFrom_cons]
    cases checked : Spell.check item with
    | valid new =>
      have kept : isRejected item = false := by rw [isRejected, checked]; rfl
      rw [accepted_cons, checked, kept]
      rfl
    | invalid first rest =>
      have rejected : isRejected item = true := by rw [isRejected, checked]; rfl
      have problems : told (item, position) = (position, rest.length + 1) := by
        rw [told, checked]
        rfl
      rw [accepted_rejected rejected, if_pos rejected, List.map_cons, problems]
      exact congrArg _ (List.append_cons ..).symm

theorem ofItems_eq (items : List Json) : ofItems items
    = ⟨Entries.putAll [] (keyed (accepted items)), (rejectedFrom 0 items).map told⟩ :=
  readItems_eq ⟨[], []⟩ 0 items

theorem isIndex_ofItems (items : List Json) : IsIndex (accepted items) (ofItems items).book := by
  rw [ofItems_eq]
  refine ⟨?_, fun id => ?_⟩
  · rw [← keys_keyed]
    exact Entries.isFirstSeen_keys_putAll _
  · rw [Entries.find?_putAll, keyed, ← List.map_reverse, List.find?_map, Option.map_map]
    simp [Function.comp_def]

theorem length_rejectedFrom (position : Nat) (items : List Json) :
    (rejectedFrom position items).length = items.countP isRejected := by
  induction items generalizing position with
  | nil => rfl
  | cons item items ih =>
    rw [rejectedFrom_cons, List.countP_cons]
    split
    · next rejected => rw [List.length_cons, ih]
    · next kept => rw [ih, Nat.add_zero]

theorem AlikeButRejected.accepted (alike : AlikeButRejected items items') :
    Book.accepted items = Book.accepted items' := by
  induction alike with
  | nil => rfl
  | both item _ ih => rw [accepted_cons, accepted_cons, ih]
  | left rejected _ ih => rw [accepted_rejected rejected, ih]
  | right rejected _ ih => rw [accepted_rejected rejected, ih]

/-! ## The log -/

/-- The warning about an element that is no spell. -/
def skipRecord (env : Env) (p : Path) (e : Nat × Nat) : LogRecord :=
  ⟨env.time, .warning, Part.storage.name, "skipping invalid spell",
    .ofJson (.obj [("path", .str p.text), ("index", .int e.1), ("errors", .int e.2)]), none⟩

/-- All that is noted about an element that is no spell. -/
def skipRecords (env : Env) (p : Path) (e : Nat × Nat) : List LogRecord :=
  [⟨env.time, .debug, Part.validator.name, "spell rejected",
      .ofJson (.obj [("errors", .int e.2)]), none⟩,
    skipRecord env p e]

theorem run_noteAll (p : Path) (rejected : List (Nat × Nat)) (env : Env) (s : State) :
    (rejected.forM fun (position, problems) => noteRejected p position problems).run env s
      = (.ok (), { s with log := s.log ++ rejected.flatMap (skipRecords env p) }) := by
  induction rejected generalizing s with
  | nil => simp [run_pure]
  | cons e rejected ih =>
    have first : (noteRejected p e.1 e.2).run env s
        = (.ok (), { s with log := s.log ++ skipRecords env p e }) := by
      rw [noteRejected, run_bind, run_note]
      dsimp only
      rw [run_note]
      simp [skipRecords, skipRecord]
    refine run_bind_eq_ok.mpr ⟨(), _, first, ?_⟩
    rw [List.flatMap_cons, ← List.append_assoc]
    exact ih _

theorem warnings_skipRecords (env : Env) (p : Path) (rejected : List (Nat × Nat)) :
    ((rejected.flatMap (skipRecords env p)).filter fun record => record.level = .warning)
      = rejected.map (skipRecord env p) := by
  rw [List.filter_flatMap, List.map_eq_flatMap]
  rfl

theorem run_loadFrom_array (file : s.disk.fileAt env.here p = some bytes)
    (holds : HoldsItems env.rooms.book bytes items) : (loadFrom p).run env s = (.ok (ofItems items),
      { s with log := s.log ++ (ofItems items).rejected.flatMap (skipRecords env p) }) := by
  have found : found env.rooms.book (s.disk.contentAt env.here p) = .ok (.items items) := by
    rw [Disk.contentAt_of_fileAt file, found_eq_items.mpr holds]
  rw [loadFrom, run_bind, run_env]
  dsimp only
  rw [run_bind, run_state]
  dsimp only
  rw [found]
  dsimp only
  rw [run_bind, run_noteAll]
  rfl

/-- A file with an array gives the spells among its elements, each identifier in the place of its
first spell and with its last one. The others are counted, and there is one warning for each, with
its position. Where two files hold arrays that differ in such elements only, the same spells are
loaded in the same order. -/
theorem loadFrom_array (file : s.disk.fileAt env.here p = some bytes)
    (holds : HoldsItems env.rooms.book bytes items) :
    ∃ reading news, (loadFrom p).run env s = (.ok reading, { s with log := s.log ++ news }) ∧
      IsIndex (accepted items) reading.book ∧
      reading.rejected.length = items.countP isRejected ∧
      (news.filter fun record => record.level = .warning)
        = (rejectedFrom 0 items).map (fun e => skipRecord env p (told e)) ∧
      ∀ t bytes' items', t.disk.fileAt env.here p = some bytes' →
        HoldsItems env.rooms.book bytes' items' → AlikeButRejected items items' →
          ∃ reading', ((loadFrom p).run env t).1 = .ok reading' ∧ reading'.book = reading.book := by
  refine ⟨ofItems items, _, run_loadFrom_array file holds, isIndex_ofItems items, ?_, ?_,
    fun t bytes' items' file' holds' alike => ⟨ofItems items', ?_, ?_⟩⟩
  · rw [ofItems_eq, List.length_map, length_rejectedFrom]
  · rw [warnings_skipRecords, ofItems_eq, List.map_map]
    rfl
  · rw [run_loadFrom_array file' holds']
  · rw [ofItems_eq, ofItems_eq, alike.accepted]

theorem encode_sample : ∃ bytes, Utf8.encode (Json.pretty (.arr [Spell.sample.wire])) = some bytes :=
  encode_eq_some (by decide +kernel)

/-- A file with null and the sample spell gives the spell, as does a file with the spell alone. -/
theorem loadFrom_array_sample :
    ∃ bytes bytes', (State.holding (Json.pretty (.arr [.null, Spell.sample.wire]))).disk.fileAt
        Env.sample.here ⟨.here, ["book.json"]⟩ = some bytes ∧
      HoldsItems Env.sample.rooms.book bytes [.null, Spell.sample.wire] ∧
      HoldsItems Env.sample.rooms.book bytes' [Spell.sample.wire] ∧
      AlikeButRejected [.null, Spell.sample.wire] [Spell.sample.wire] ∧
      ∃ reading news reading', (loadFrom ⟨.here, ["book.json"]⟩).run Env.sample
          (State.holding (Json.pretty (.arr [.null, Spell.sample.wire])))
            = (.ok reading, { State.holding (Json.pretty (.arr [.null, Spell.sample.wire])) with
                log := news }) ∧
        IsIndex [Spell.sample.normal] reading.book ∧ reading.rejected.length = 1 ∧
        (news.filter fun record => record.level = .warning)
          = [skipRecord Env.sample ⟨.here, ["book.json"]⟩ (0, 1)] ∧
        ((loadFrom ⟨.here, ["book.json"]⟩).run Env.sample
          (State.holding (Json.pretty (.arr [Spell.sample.wire])))).1 = .ok reading' ∧
        reading'.book = reading.book := by
  obtain ⟨bytes, encoded⟩ := encode_eq_some
    (show (Json.pretty (.arr [.null, Spell.sample.wire])).isEncodable = true by decide +kernel)
  obtain ⟨bytes', encoded'⟩ := encode_sample
  have holds : HoldsItems Env.sample.rooms.book bytes [.null, Spell.sample.wire] :=
    holdsItems_pretty (by decide +kernel) (by decide +kernel) (by decide +kernel) encoded
  have holds' : HoldsItems Env.sample.rooms.book bytes' [Spell.sample.wire] :=
    holdsItems_pretty (by decide +kernel) (by decide +kernel) (by decide +kernel) encoded'
  have alike : AlikeButRejected [.null, Spell.sample.wire] [Spell.sample.wire] :=
    .left (by decide +kernel) (.both _ .nil)
  obtain ⟨reading, news, loads, index, rejected, warnings, others⟩ :=
    loadFrom_array (State.fileAt_holding encoded) holds
  obtain ⟨reading', loads', same⟩ :=
    others _ bytes' _ (State.fileAt_holding encoded') holds' alike
  have spells : accepted [.null, Spell.sample.wire] = [Spell.sample.normal] := by decide +kernel
  exact ⟨bytes, bytes', State.fileAt_holding encoded, holds, holds', alike, reading, news, reading',
    loads, spells ▸ index, rejected, warnings, loads', same⟩

/-- The text of so many arrays, each of them the only element of the one around it. -/
def nestedText (n : Nat) : Text :=
  List.replicate n (.scalar '[') ++ List.replicate n (.scalar ']')

/-- An array with the sample spell, from behind the bracket that opens it. -/
def sampleRest : Text := (Json.pretty (.arr [Spell.sample.wire])).drop 1

theorem exceedsReader_nestedText {room : Json.Room} {n : Nat} (many : room.1 < n) :
    ∃ bytes, Utf8.encode ("[" ++ nestedText n ++ "," ++ sampleRest) = some bytes ∧
      ExceedsReader room bytes (.tooDeep .array) := by
  let rest : Text := List.replicate n (CodePoint.scalar ']') ++ "," ++ sampleRest
  have text : ("[" ++ nestedText n ++ "," ++ sampleRest : Text)
      = List.replicate (n + 1) (CodePoint.scalar '[') ++ rest := by
    rw [List.replicate_succ, nestedText]
    simp [rest, Text.ofString]
  have encodable : rest.isEncodable = true := by
    rw [Text.isEncodable, List.all_append, List.all_append, Bool.and_eq_true, Bool.and_eq_true]
    exact ⟨⟨List.all_eq_true.mpr fun c closing => List.eq_of_mem_replicate closing ▸ rfl, rfl⟩,
      by decide +kernel⟩
  have plain : ∀ c ∈ rest, c ≠ .scalar '\r' := by
    intro c member
    rcases List.mem_append.mp member with before | behind
    · rcases List.mem_append.mp before with closing | comma
      · rw [List.eq_of_mem_replicate closing]
        decide
      · rw [List.mem_singleton.mp comma]
        decide
    · exact pretty_noReturn _ c (List.mem_of_mem_drop behind)
  rw [text]
  exact exceedsReader_append (Nat.lt_succ_of_lt many) encodable plain

/-- A file with the sample spell loads, but not with an element of a hundred thousand arrays before
the spell. -/
theorem loadFrom_hidden :
    ((loadFrom ⟨.here, ["book.json"]⟩).run Env.sample (State.holding ("[" ++ sampleRest))).1
        = .ok ⟨[(Spell.sample.id, Spell.sample.normal)], []⟩ ∧
      ((loadFrom ⟨.here, ["book.json"]⟩).run Env.sample
        (State.holding ("[" ++ nestedText 100000 ++ "," ++ sampleRest))).1
          = .error (.unread (.tooDeep .array)) := by
  constructor
  · have whole : ("[" ++ sampleRest : Text) = Json.pretty (.arr [Spell.sample.wire]) := by
      decide +kernel
    have texted : text [(Spell.sample.id, Spell.sample)]
        = .ok (Json.pretty (.arr [Spell.sample.wire])) := by decide +kernel
    obtain ⟨bytes, encoded⟩ := encode_sample
    rw [whole, (run_loadFrom _ _ _).1, Disk.contentAt_of_fileAt (State.fileAt_holding encoded)]
    exact loaded_of_text isLawful_sample texted encoded _
  · obtain ⟨bytes, encoded, exceeds⟩ := @exceedsReader_nestedText Env.sample.rooms.book 100000 (by decide)
    rw [(run_loadFrom _ _ _).1, Disk.contentAt_of_fileAt (State.fileAt_holding encoded)]
    exact ((loaded_bytes _ _).1 _).mpr ⟨_, exceeds, rfl⟩

end Grimoire.Book
