import Grimoire.Proofs.Book.Kept
import Grimoire.Proofs.Book.Loading
import Grimoire.Proofs.Spell.Storable

/-!
# Saving what was loaded

What is loaded came out of checks and has no integer with too many digits. So a book into which a
loaded one was changed is saved exactly when every loaded spell that is still in it has a wire form
and no text there that cannot be encoded (`Book.saveTo_loaded_iff`). A file can hold a
spell of which this is not true: it is loaded, but then no spell can be removed from the file any
more (`Book.saveTo_surrogate`).
-/

namespace Grimoire.Book

open Act

theorem mem_readItems {reading : Reading} {position : Nat} {items : List Json} {e : Text × Spell}
    (member : e ∈ (readItems reading position items).book) :
    e ∈ reading.book ∨ ∃ item ∈ items, Spell.check item = .valid e.2 := by
  induction items generalizing reading position with
  | nil => exact .inl member
  | cons item items ih =>
    rcases ih member with first | ⟨later, inside, valid⟩
    · rw [Reading.step] at first
      split at first
      · next s valid =>
        rcases Entries.mem_put first with rfl | before
        · exact .inr ⟨item, List.mem_cons_self, valid⟩
        · exact .inl before
      · exact .inl first
    · exact .inr ⟨later, List.mem_cons_of_mem _ inside, valid⟩

variable {p : Path} {env : Env} {s t : State} {reading : Reading} {changed : Book}

/-- The integers of a loaded spell were read from a file. -/
theorem isWritable_of_loaded
    (loads : loaded env.rooms.book (s.disk.contentAt env.here p) = .ok reading) {e : Text × Spell}
    (member : e ∈ reading.book) : e.2.isWritable = true := by
  cases file : s.disk.fileAt env.here p with
  | none =>
    obtain rfl := eq_of_loaded_absent file loads
    exact absurd member (by simp)
  | some bytes =>
    rw [Disk.contentAt_of_fileAt file] at loads
    obtain ⟨-, arrays, others⟩ := loaded_bytes env.rooms.book bytes
    rcases others reading loads with ⟨items, holds⟩ | rfl
    · obtain rfl := Except.ok.inj ((arrays items holds).symm.trans loads)
      obtain ⟨t, -, read⟩ := holds
      rcases mem_readItems member with before | ⟨item, inside, valid⟩
      · exact absurd before (by simp)
      · exact Spell.isWritable_of_check
          (Json.isWritable_item (Json.isWritable_of_read read) inside) valid
    · exact absurd member (by simp)

/-- A loaded spell is in the way of saving exactly when it cannot be stored. -/
theorem isEncodable_iff_of_loaded
    (loads : loaded env.rooms.book (s.disk.contentAt env.here p) = .ok reading)
    (fresh : ∀ e ∈ changed, e ∉ reading.book → IsEncodable [e]) :
    IsEncodable changed ↔ ∀ e ∈ changed, e ∈ reading.book → e.2.IsStorable := by
  have storable : ∀ e ∈ reading.book, (e.2.IsStorable ↔ e.2.isWirable = true ∧
      e.2.wire.isWritable = true ∧ (Json.pretty e.2.wire).isEncodable = true) := fun e old =>
    Spell.isStorable_iff ((isLawful_loaded loads).checked e old).rules.1
      (isWritable_of_loaded loads old)
  rw [isEncodable_iff]
  constructor
  · exact fun each e member old => (storable e old).mpr (each e member)
  · intro each e member
    by_cases old : e ∈ reading.book
    · exact (storable e old).mp (each e member old)
    · exact isEncodable_iff.mp (fresh e member old) e List.mem_cons_self

/-- Where the way to the file is open, a book into which the loaded one was changed by spells that
could be saved alone gets saved exactly when each loaded spell in it can be stored. -/
theorem saveTo_loaded_iff (loads : (loadFrom p).run env s = (.ok reading, t))
    (made : (s.disk.makeFolders env.here p.anchor p.parent.names.reverse).1 = .ok ())
    (isOpen : IsOpen (prepared s.disk env.here p) env.here p)
    (fresh : ∀ e ∈ changed, e ∉ reading.book → IsEncodable [e]) :
    (∃ u, (saveTo p changed).run env t = (.ok (), u)) ↔
      ∀ e ∈ changed, e ∈ reading.book → e.2.IsStorable := by
  obtain ⟨outcome, logs⟩ := run_loadFrom p env s
  rw [loads] at outcome logs
  rw [← isEncodable_iff_of_loaded outcome.symm fresh]
  constructor
  · rintro ⟨u, saves⟩
    obtain ⟨-, bytes, writes⟩ := run_saveTo_eq_ok saves
    obtain ⟨text, texted, encoded⟩ := writes.text
    exact ⟨text, bytes, texted, encoded⟩
  · rintro ⟨text, bytes, texted, encoded⟩
    obtain ⟨e, writes⟩ := isOpen.writes texted encoded
    rw [← logs.disk] at made writes
    obtain ⟨u, saves, -⟩ := run_saveTo_of_writes made writes
    exact ⟨u, saves⟩

theorem isOpen_holding (text : Text) :
    IsOpen (prepared (State.holding text).disk Env.sample.here ⟨.here, ["book.json"]⟩)
      Env.sample.here ⟨.here, ["book.json"]⟩ := by
  have file : (prepared (State.holding text).disk Env.sample.here ⟨.here, ["book.json"]⟩).find?
      [Name.ofText "book.json"] = some (.file ((Utf8.encode text).getD [])) := rfl
  refine ⟨rfl, by decide, ⟨[Name.ofText "book.json"], rfl, by simp [file]⟩, 0, ⟨rfl, by simp⟩, ?_⟩
  exact ⟨by decide +kernel, by decide +kernel, by decide +kernel, by decide +kernel⟩

/-- The sample spell is loaded from a file and saved again. -/
theorem saveTo_loaded_sample :
    ∃ t, (loadFrom ⟨.here, ["book.json"]⟩).run Env.sample
        (State.holding (Json.pretty (.arr [Spell.sample.wire])))
          = (.ok ⟨[(Spell.sample.id, Spell.sample.normal)], []⟩, t) ∧
      ∃ u, (saveTo ⟨.here, ["book.json"]⟩ [(Spell.sample.id, Spell.sample.normal)]).run Env.sample t
        = (.ok (), u) := by
  have texted : text [(Spell.sample.id, Spell.sample)]
      = .ok (Json.pretty (.arr [Spell.sample.wire])) := by decide +kernel
  obtain ⟨bytes, encoded⟩ := encode_eq_some
    (show (Json.pretty (.arr [Spell.sample.wire])).isEncodable = true by decide +kernel)
  obtain ⟨outcome, -⟩ := run_loadFrom ⟨.here, ["book.json"]⟩ Env.sample
    (State.holding (Json.pretty (.arr [Spell.sample.wire])))
  rw [Disk.contentAt_of_fileAt (State.fileAt_holding encoded),
    loaded_of_text isLawful_sample texted encoded] at outcome
  rcases loads : (loadFrom ⟨.here, ["book.json"]⟩).run Env.sample
    (State.holding (Json.pretty (.arr [Spell.sample.wire]))) with ⟨_, t⟩
  obtain rfl := (congrArg Prod.fst loads).symm.trans outcome
  refine ⟨t, rfl, (saveTo_loaded_iff loads rfl (isOpen_holding _) ?_).mpr ?_⟩
  · exact fun e member fresh => absurd member fresh
  · rintro e member -
    obtain rfl := List.mem_singleton.mp member
    exact ⟨by decide +kernel, by decide +kernel⟩

/-- A spell with a surrogate that stands alone in its input schema. -/
def surrogateSpell : Spell :=
  { Spell.sample with
    id := "7d444840-9dc0-11d1-b245-5ffdce74fad3"
    name := "say-nothing"
    inputSchema := [("title", .str Text.loneSurrogate)] }

/-- A file with the sample spell and a spell that cannot be stored. -/
def surrogateState : State :=
  State.holding (Json.asciiLine (.arr [Spell.sample.wire, surrogateSpell.wire]))

/-- Both spells are loaded, but the book cannot be saved, neither as it is nor without the sample
spell. -/
theorem saveTo_surrogate :
    ((do return (← loadFrom ⟨.here, ["book.json"]⟩).book).run Env.sample surrogateState).1
      = .ok [(Spell.sample.id, Spell.sample.normal), (surrogateSpell.id, surrogateSpell)] ∧
    ((do saveTo ⟨.here, ["book.json"]⟩ (← loadFrom ⟨.here, ["book.json"]⟩).book).run Env.sample
      surrogateState).1 ≠ .ok () ∧
    ((do saveTo ⟨.here, ["book.json"]⟩ (Entries.erase Spell.sample.id
      (← loadFrom ⟨.here, ["book.json"]⟩).book)).run Env.sample surrogateState).1 ≠ .ok () := by
  decide +kernel

end Grimoire.Book
