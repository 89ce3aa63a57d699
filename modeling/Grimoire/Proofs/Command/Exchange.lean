import Grimoire.Proofs.Book.Frame
import Grimoire.Proofs.Command.Adding
import Grimoire.Proofs.Command.Lookup
import Grimoire.Proofs.Source.Delivery

/-!
# Showing a spell and adding what was shown

What is shown of a spell is a document from which the spell can be added to another book: read back, it
is the wire form of the spell, which passes the check under the identifier in it. So from a missing file
on, the new book holds that spell and no other one, with the same wire form, and it shows the same text
(`Command.display_add`). Where the new spell differs from the old one, it is its normal form.
-/

namespace Grimoire

namespace Book

variable {book : Book} {new : Spell}

/-- A spell of a book stands under its identifier. -/
theorem IsLawful.mem_of_mem_values (lawful : IsLawful book) (member : new ∈ Entries.values book) :
    (new.id, new) ∈ book := by
  obtain ⟨e, inside, rfl⟩ := List.mem_map.mp member
  rw [← lawful.own e inside]
  exact inside

/-- A spell of a book is what its identifier means. -/
theorem IsLawful.lookUp?_id (lawful : IsLawful book) (member : new ∈ Entries.values book) :
    book.lookUp? new.id = some new := by
  rw [lookUp?, (Entries.mem_iff_find? lawful.distinct).mp (lawful.mem_of_mem_values member)]

end Book

namespace Command

open Act Book

variable {env : Env} {s t u : State} {place : Option Text} {source : Text}
  {new : Spell} {reading : Reading} {bytes : Bytes}

/-! ## What is shown -/

/-- The text that is shown of a spell. -/
def shownText (new : Spell) : Text := Json.pretty new.wire ++ "\n"

/-- A spell that was shown has a wire form, and the text of it can be encoded. -/
theorem shown_of_runDisplay {key : Text}
    (loads : loaded env.rooms.book (s.disk.contentAt env.here (pathOf env place)) = .ok reading)
    (found : reading.book.lookUp? key = some new)
    (shows : (runDisplay key place).run env s = (.ok 0, t)) :
    new.isWirable = true ∧ (Json.pretty new.wire).isEncodable = true ∧
      t.output = s.output ++ shownText new := by
  obtain ⟨v, looksUp, log, rfl⟩ := run_lookUp ⟨rfl, rfl⟩ loads found
  rw [runDisplay, orReport_of_ok looksUp] at shows
  dsimp only at shows
  obtain ⟨wire, v, wired, shows⟩ := run_bind_eq_ok.mp shows
  rw [run_ofExcept] at wired
  obtain ⟨given, rfl⟩ := Prod.mk.inj wired
  obtain ⟨wirable, rfl⟩ := Spell.wire?_eq_ok_iff.mp given
  obtain ⟨⟨⟩, v, prints, last⟩ := run_bind_eq_ok.mp shows
  obtain ⟨⟨⟩, w, first, second⟩ := run_bind_eq_ok.mp prints
  have encodable := run_print_eq_ok.mp (congrArg Prod.fst first)
  rw [run_print encodable] at first
  obtain ⟨-, rfl⟩ := Prod.mk.inj first
  rw [run_print (by decide)] at second
  obtain ⟨-, rfl⟩ := Prod.mk.inj second
  rw [run_pure] at last
  obtain ⟨-, rfl⟩ := Prod.mk.inj last
  exact ⟨wirable, encodable, by rw [shownText, List.append_assoc]⟩

/-- Whether a spell can be shown, and what is shown of it can be read. -/
structure IsShowable (new : Spell) : Prop where
  checked : new.IsChecked
  writable : new.wire.isWritable = true
  wirable : new.isWirable = true
  encodable : (Json.pretty new.wire).isEncodable = true

namespace IsShowable

theorem encode (showable : IsShowable new) : ∃ bytes, Utf8.encode (shownText new) = some bytes := by
  refine encode_eq_some ?_
  rw [shownText, Text.isEncodable, List.all_append, Bool.and_eq_true]
  exact ⟨showable.encodable, by decide⟩

/-- What was shown of a spell reads back as its wire form. -/
theorem read_shownText (showable : IsShowable new) (room : Json.Room) :
    Json.read room (shownText new) = .ok new.wire := by
  have few : Spell.wireDepth + 1 ≤ 300 := by decide
  have levels := Spell.levels_wire (Spell.isShallow_of_isWirable showable.wirable)
  exact Json.read_print Json.isReadable_indented (Spell.isProper_wire showable.checked.rules.2)
    showable.writable ((Json.nesting_le_levels _).trans (levels.trans (few.trans room.2)))
    (by decide)

/-- Whatever the source of what was shown, the wire form is the candidate in it. -/
theorem fst_read (showable : IsShowable new) (encoded : Utf8.encode (shownText new) = some bytes)
    (delivers : Source.Delivers env s bytes source .utf8) (fits : Source.Fits source bytes) :
    ((Source.read source).run env s).1 = .ok new.wire := by
  have decoded : Response.decode .utf8 bytes = .ok (shownText new) := by
    rw [Response.decode, Utf8.decode_encode encoded]
    rfl
  have read := showable.read_shownText env.rooms.source
  rcases Source.read_of_delivers delivers fits decoded with ⟨v, value, outcome⟩ |
    ⟨e, f, fault, -⟩ | ⟨limit, -, given, -⟩
  · rw [outcome, Except.ok.inj (value.symm.trans read)]
  · exact absurd (fault.symm.trans read) (by simp)
  · exact absurd (given.symm.trans read) (by simp)

/-- A book of a spell that can be shown can be written. -/
theorem isEncodable (showable : IsShowable new) : IsEncodable [(new.id, new.normal)] := by
  refine isEncodable_iff.mpr fun e member => ?_
  obtain rfl := List.mem_singleton.mp member
  rw [Spell.normal_wire]
  exact ⟨Spell.isWirable_normal showable.wirable, showable.writable, showable.encodable⟩

theorem isLawful (showable : IsShowable new) : IsLawful [(new.id, new.normal)] := by
  refine ⟨fun e member => ?_, List.nodup_singleton _, fun e member => ?_⟩ <;>
    obtain rfl := List.mem_singleton.mp member
  · rfl
  · exact showable.checked.normal

end IsShowable

/-! ## What is added -/

/-- A wire form is added under the identifier in it to a book without spells. -/
theorem underId_wire (fresh : Text) (force : Bool) (new : Spell) :
    underId fresh [] force new.wire = new.wire := rfl

/-- The wire form of a spell is prepared to be the one spell of a book. -/
theorem run_prepareAdd_wire (force : Bool) (valid : new.IsValid)
    (reads : ((Source.read source).run env s).1 = .ok new.wire)
    (loads : loaded env.rooms.book (s.disk.contentAt env.here (pathOf env place)) = .ok ⟨[], []⟩) :
    ∃ t, (prepareAdd source force place).run env s
      = (.ok (new.normal, [(new.id, new.normal)]), t) ∧ t.disk = s.disk := by
  have passive := Source.isPassive_read source env s
  rw [prepareAdd, run_bind]
  rcases read : (Source.read source).run env s with ⟨outcome, t⟩
  rw [read] at reads passive
  obtain rfl : outcome = .ok new.wire := reads
  obtain ⟨u, loading, logs⟩ := run_load place env t
  rw [passive.1, loads] at loading
  obtain ⟨n, identifies⟩ := run_identified new.wire [] force env u
  rw [underId_wire] at identifies
  dsimp only
  rw [run_bind, loading]
  dsimp only [Except.map]
  rw [run_bind, identifies]
  dsimp only
  rw [run_bind, Book.check, Spell.check_wire valid]
  exact ⟨{ u with drawn := n }, rfl, logs.disk.trans passive.1⟩

/-- Whether a file can be written where a book is to be. -/
def CanSave (env : Env) (s : State) (place : Option Text) : Prop :=
  ∃ u, (saveTo (pathOf env place) []).run env s = (.ok (), u)

/-- Where no file is yet but one can be written, the book has no spells. -/
theorem CanSave.loads (can : CanSave env s place) (tree : s.disk.IsTree)
    (missing : s.disk.fileAt env.here (pathOf env place) = none) :
    loaded env.rooms.book (s.disk.contentAt env.here (pathOf env place)) = .ok ⟨[], []⟩ := by
  obtain ⟨-, isOpen, -⟩ := (run_saveTo_iff tree).mp can
  obtain ⟨target, located, -⟩ := isOpen.target
  have accepted := (Disk.locate_eq_ok.mp located).1
  rw [loaded_contentAt, missing, accepted]

/-- A spell that can be shown is added from what was shown of it to a book without spells. -/
theorem IsShowable.run_addSpell (showable : IsShowable new) (force : Bool) (tree : s.disk.IsTree)
    (reads : ((Source.read source).run env s).1 = .ok new.wire)
    (loads : loaded env.rooms.book (s.disk.contentAt env.here (pathOf env place)) = .ok ⟨[], []⟩)
    (can : CanSave env s place) :
    ∃ t u, (addSpell source force place).run env s = (.ok (new.normal, pathOf env place), u) ∧
      t.disk = s.disk ∧
      (saveTo (pathOf env place) [(new.id, new.normal)]).run env t = (.ok (), u) := by
  obtain ⟨made, isOpen, -⟩ := (run_saveTo_iff tree).mp can
  obtain ⟨t, prepared, same⟩ := run_prepareAdd_wire force showable.checked.rules.1 reads loads
  obtain ⟨u, saved⟩ : ∃ u, (saveTo (pathOf env place) [(new.id, new.normal)]).run env t
      = (.ok (), u) :=
    (run_saveTo_iff (same.symm ▸ tree)).mpr
      ⟨same.symm ▸ made, same.symm ▸ isOpen, showable.isEncodable⟩
  refine ⟨t, u, ?_, same, saved⟩
  rw [addSpell_eq]
  exact run_bind_eq_ok.mpr ⟨_, t, prepared, run_bind_eq_ok.mpr
    ⟨_, u, run_save_eq_ok.mpr ⟨rfl, saved⟩, rfl⟩⟩

/-! ## There and back -/

/-- Whether what was shown of a spell has got into another book: that book holds this spell and no other
one, with the same wire form, and it shows the same text. -/
structure HasTaken (new : Spell) (env : Env) (place : Option Text) (u : State) : Prop where
  holds : loaded env.rooms.book (u.disk.contentAt env.here (pathOf env place))
    = .ok ⟨[(new.id, new.normal)], []⟩
  id : new.normal.id = new.id
  wire : new.normal.wire? = new.wire?
  shows : ∀ v : State, v.disk = u.disk → ∃ w, (runDisplay new.id place).run env v = (.ok 0, w) ∧
    w.output = v.output ++ shownText new

theorem HasTaken.congr (taken : HasTaken new env place t) (same : u.disk = t.disk) :
    HasTaken new env place u :=
  ⟨same ▸ taken.holds, taken.id, taken.wire, fun v disk => taken.shows v (disk.trans same)⟩

/-- A book into which the spell was saved has taken it. -/
theorem IsShowable.hasTaken (showable : IsShowable new) (tree : s.disk.IsTree)
    (saved : (saveTo (pathOf env place) [(new.id, new.normal)]).run env s = (.ok (), u)) :
    HasTaken new env place u := by
  have holds := loads_saved tree showable.isLawful saved
  have twice : normal [(new.id, new.normal)] = [(new.id, new.normal)] :=
    normal_normal [(new.id, new)]
  rw [twice] at holds
  have wire := Spell.normal_wire new
  refine ⟨holds, rfl, ?_, fun v same => ?_⟩
  · have wired := Spell.wire?_eq_ok_iff.mpr ⟨showable.wirable, rfl⟩
    rw [wired, Spell.wire?_normal wired]
  · have found : Book.lookUp? new.id [(new.id, new.normal)] = some new.normal := by
      simp [Book.lookUp?, Entries.find?]
    obtain ⟨w, shows, -, output⟩ := run_runDisplay ⟨rfl, rfl⟩ (same.symm ▸ holds) found
      (Spell.isWirable_normal showable.wirable) (wire.symm ▸ showable.encodable)
    rw [wire, List.append_assoc] at output
    exact ⟨w, shows, output⟩

/-- Whenever a spell of a book is shown by its identifier, the bytes of what is printed can be added,
from whatever source, to a book of which there is no file yet: if a file can be written there, the new
book takes the spell. The code of the command is 0 exactly if what it reports can be printed. -/
theorem display_add
    (loads : loaded env.rooms.book (s.disk.contentAt env.here (pathOf env place)) = .ok reading)
    (member : new ∈ Entries.values reading.book)
    (shows : (runDisplay new.id place).run env s = (.ok 0, t)) :
    ∃ bytes, t.output = s.output ++ shownText new ∧ Utf8.encode (shownText new) = some bytes ∧
      ∀ env' s' source force place', s'.disk.IsTree → Source.Delivers env' s' bytes source .utf8 →
        Source.Fits source bytes → s'.disk.fileAt env'.here (pathOf env' place') = none →
        CanSave env' s' place' →
        HasTaken new env' place' ((runAdd source force place').run env' s').2 ∧
          (((runAdd source force place').run env' s').1 = .ok 0 ↔
            IsReportable env'.marks new.normal (pathOf env' place')) := by
  have lawful := isLawful_loaded loads
  have inside := lawful.mem_of_mem_values member
  obtain ⟨wirable, encodable, output⟩ :=
    shown_of_runDisplay loads (lawful.lookUp?_id member) shows
  have showable : IsShowable new := ⟨lawful.checked _ inside,
    Spell.isWritable_wire (isWritable_of_loaded loads inside), wirable, encodable⟩
  obtain ⟨bytes, encoded⟩ := showable.encode
  refine ⟨bytes, output, encoded, ?_⟩
  intro env' s' source force place' tree delivers fits missing can
  obtain ⟨t', u, adds, same, saved⟩ := showable.run_addSpell force tree
    (showable.fst_read encoded delivers fits) (can.loads tree missing) can
  have parts : runAdd source force place' = orReport (addSpell source force place') fun saved =>
      reportSaved saved.1 saved.2 := rfl
  rw [parts, orReport_of_ok adds]
  exact ⟨(showable.hasTaken (same.symm ▸ tree) saved).congr (isPassive_reportSaved _ _ env' u).1,
    run_reportSaved_eq_ok⟩

/-- The sample spell is shown, and what was printed is the input of a process that adds it to a file. -/
theorem display_add_sample :
    let s := State.holding (Json.pretty (.arr [Spell.sample.wire]))
    let shown := (runDisplay Spell.sample.id (some "book.json")).run Env.sample s
    shown.1 = .ok 0 ∧ ∃ bytes, shown.2.output = s.output ++ shownText Spell.sample.normal ∧
      Utf8.encode (shownText Spell.sample.normal) = some bytes ∧
      HasTaken Spell.sample.normal Env.sample (some "new.json")
        ((runAdd "-" false (some "new.json")).run Env.sample
          { State.empty with input := bytes }).2 := by
  intro s shown
  have zero : shown.1 = .ok 0 := by decide +kernel
  have texted : text [(Spell.sample.id, Spell.sample)]
      = .ok (Json.pretty (.arr [Spell.sample.wire])) := by decide +kernel
  obtain ⟨file, encoded⟩ := encode_eq_some
    (show (Json.pretty (.arr [Spell.sample.wire])).isEncodable = true by decide +kernel)
  have loads : loaded Env.sample.rooms.book
      (s.disk.contentAt Env.sample.here (pathOf Env.sample (some "book.json")))
        = .ok ⟨[(Spell.sample.id, Spell.sample.normal)], []⟩ :=
    (congrArg _ (Disk.contentAt_of_fileAt (State.fileAt_holding encoded))).trans
      (loaded_of_text isLawful_sample texted encoded _)
  have member : Spell.sample.normal ∈ Entries.values [(Spell.sample.id, Spell.sample.normal)] :=
    List.mem_cons_self
  obtain ⟨bytes, output, encoded', adds⟩ := display_add loads member (Prod.ext zero rfl)
  have isOpen : IsOpen (prepared State.empty.disk Env.sample.here ⟨.here, ["new.json"]⟩)
      Env.sample.here ⟨.here, ["new.json"]⟩ :=
    ⟨rfl, by decide, ⟨[Name.ofText "new.json"], rfl, by decide⟩, 0, ⟨rfl, by simp⟩,
      ⟨by decide +kernel, by decide +kernel, by decide +kernel, by decide +kernel⟩⟩
  have tree : Disk.IsTree ({ State.empty with input := bytes } : State).disk := State.isTree_empty
  have can : CanSave Env.sample { State.empty with input := bytes } (some "new.json") :=
    (run_saveTo_iff tree).mpr
      ⟨rfl, isOpen, isEncodable_iff.mpr fun _ none => absurd none List.not_mem_nil⟩
  exact ⟨zero, bytes, output, encoded', (adds Env.sample { State.empty with input := bytes } "-" false
    (some "new.json") tree (.input rfl) (fun web => absurd web (by decide)) rfl can).1⟩

end Command

end Grimoire
