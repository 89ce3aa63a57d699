import Grimoire.Proofs.Book.Changes
import Grimoire.Proofs.Book.Races
import Grimoire.Proofs.Json.Encodable

/-!
# Files that calls keep

From a missing file on, any calls leave the file missing, or leave it with the text of a book in
which every name names one spell and on a disk on which it can be written again
(`Book.isKept_runAll`). What is saved in the place of such a book gets into the file whenever its
text can be encoded (`Book.Keeps.save`), and taking spells out leaves such a text
(`Book.IsEncodable.erase`).
-/

namespace Grimoire

/-- A file that keeps a book: it holds the text of the book, in which every name names one spell,
and it can be written again. -/
structure Book.Keeps (d : Disk) (here : Route) (p : Path) (book : Book) : Prop where
  unique : Book.IsUnique book
  text : ∃ t bytes, Book.text book = .ok t ∧ Utf8.encode t = some bytes ∧
    d.fileAt here p = some bytes
  isOpen : Book.IsOpen d here p
  folder : p.parent.names.reverse ≠ [] → d.hasFolder here p.parent = true

namespace Book

open Act Command

variable {place : Option Text} {here : Route} {p : Path} {env : Env} {s t u : State} {book : Book}
  {room : Json.Room}

/-! ## Texts of books -/

/-- Whether a book has a text that can be encoded. -/
def IsEncodable (book : Book) : Prop := ∃ t bytes, text book = .ok t ∧ Utf8.encode t = some bytes

/-- A book has a text that can be encoded if each of its spells has. -/
theorem isEncodable_iff : IsEncodable book ↔ ∀ e ∈ book, e.2.isWirable = true ∧
    e.2.wire.isWritable = true ∧ (Json.pretty e.2.wire).isEncodable = true := by
  have items : ∀ {P : Json → Prop}, (∀ v ∈ wires book, P v) ↔ ∀ e ∈ book, P e.2.wire := by
    intro P
    rw [wires, Entries.values, List.forall_mem_map, List.forall_mem_map]
  constructor
  · rintro ⟨t, bytes, texted, encoded⟩
    obtain ⟨wirable, writable, rfl⟩ := text_eq_ok texted
    have encodable := (Utf8.isSome_encode _).symm.trans (Option.isSome_iff_exists.mpr ⟨_, encoded⟩)
    exact fun e member => ⟨wirable e member, items.mp (Json.isWritable_arr.mp writable) e member,
      items.mp (Json.isEncodable_pretty_arr.mp encodable) e member⟩
  · intro each
    have writable : (Json.arr (wires book)).isWritable = true :=
      Json.isWritable_arr.mpr (items.mpr fun e member => (each e member).2.1)
    obtain ⟨bytes, encoded⟩ := encode_eq_some (Json.isEncodable_pretty_arr.mpr
      (items.mpr fun e member => (each e member).2.2))
    refine ⟨_, bytes, ?_, encoded⟩
    rw [text, mapM_wire?_eq fun e member => (each e member).1]
    exact if_pos writable

theorem IsEncodable.normal (encodable : IsEncodable book) : IsEncodable (normal book) := by
  obtain ⟨t, bytes, texted, encoded⟩ := encodable
  exact ⟨t, bytes, text_normal texted, encoded⟩

theorem IsEncodable.erase (encodable : IsEncodable book) (key : Text) :
    IsEncodable (Entries.erase key book) :=
  isEncodable_iff.mpr fun e member =>
    isEncodable_iff.mp encodable e (List.mem_of_mem_filter member)

/-! ## Saving -/

theorem Keeps.isEncodable (keeps : Keeps s.disk here p book) : IsEncodable book := by
  obtain ⟨t, bytes, texted, encoded, -⟩ := keeps.text
  exact ⟨t, bytes, texted, encoded⟩

theorem Keeps.loads (keeps : Keeps s.disk here p book) :
    loaded room (s.disk.contentAt here p) = .ok ⟨normal book, []⟩ := by
  obtain ⟨t, bytes, texted, encoded, content⟩ := keeps.text
  rw [loaded_contentAt, content]
  exact loaded_of_text keeps.unique.lawful texted encoded room

theorem Keeps.congr {d e : Disk} (keeps : Keeps d here p book) (same : Disk.Same d e) :
    Keeps e here p book := by
  obtain ⟨t, bytes, texted, encoded, content⟩ := keeps.text
  exact ⟨keeps.unique, ⟨t, bytes, texted, encoded, (Disk.fileAt_congr same).trans content⟩,
    keeps.isOpen.congr same,
    fun nonempty => Disk.hasFolder_mono same.folder (keeps.folder nonempty)⟩

/-- Nothing more is made above a file that keeps a book. -/
theorem Keeps.makeFolders (keeps : Keeps s.disk here p book) :
    s.disk.makeFolders here p.anchor p.parent.names.reverse = (.ok (), s.disk) := by
  refine Disk.makeFolders_of_hasFolder fun nonempty => ?_
  have folder := keeps.folder nonempty
  rwa [List.reverse_reverse]

/-- A file into which a book was saved keeps the book. -/
theorem keeps_saved (ready : s.disk.IsReady env.here p) (unique : IsUnique book)
    (saved : (saveTo p book).run env s = (.ok (), u)) : Keeps u.disk env.here p book := by
  obtain ⟨made, bytes, writes⟩ := run_saveTo_eq_ok saved
  obtain ⟨-, t, bytes', texted, encoded, content⟩ := isReady_saved ready saved
  have tree := (isReady_prepared ready).tree
  refine ⟨unique, ⟨t, bytes', texted, encoded, content⟩, writes.isOpen tree, fun nonempty => ?_⟩
  obtain ⟨target, -, -, stored⟩ := writes.stored tree
  have folder := (Disk.adds_makeFolders env.here p.anchor p.parent.names.reverse).2 made nonempty
  rw [List.reverse_reverse] at folder
  exact (stored.hasFolder p.parent).trans folder

/-- Another book is saved in the place of one that a file keeps. -/
theorem Keeps.save (keeps : Keeps s.disk here p book) (ready : s.disk.IsReady here p)
    (sees : Sees place here p env) {other : Book} (unique : IsUnique other)
    (encodable : IsEncodable other) :
    ∃ u, (Book.save place other).run env s = (.ok p, u) ∧ Keeps u.disk here p other := by
  obtain ⟨rfl, rfl⟩ := sees
  obtain ⟨t, bytes, texted, encoded⟩ := encodable
  have made := keeps.makeFolders
  have prepared : prepared s.disk env.here (pathOf env place) = s.disk := congrArg Prod.snd made
  obtain ⟨e, writes⟩ := keeps.isOpen.writes texted encoded
  obtain ⟨u, saved, -⟩ := run_saveTo_of_writes (congrArg Prod.fst made) (prepared.symm ▸ writes)
  exact ⟨u, run_save_eq_ok.mpr ⟨rfl, saved⟩, keeps_saved ready unique saved⟩

/-! ## What calls keep -/

/-- Whether a file is missing or keeps a book, at a path that reaches it. -/
structure IsKept (d : Disk) (here : Route) (p : Path) : Prop where
  ready : d.IsReady here p
  file : d.fileAt here p = none ∨ ∃ book, Keeps d here p book

/-- What is loaded from such a file is an empty book, or the one that the file keeps. -/
theorem IsKept.loads (kept : IsKept s.disk here p) {reading : Reading}
    (loads : loaded room (s.disk.contentAt here p) = .ok reading) :
    reading = ⟨[], []⟩ ∨ ∃ book, Keeps s.disk here p book ∧ reading = ⟨normal book, []⟩ := by
  rcases kept.file with absent | ⟨book, keeps⟩
  · exact .inl (eq_of_loaded_absent absent loads)
  · exact .inr ⟨book, keeps, (Except.ok.inj (keeps.loads.symm.trans loads)).symm⟩

/-- In a book that is loaded from such a file every name names one spell. -/
theorem IsKept.isUnique (kept : IsKept s.disk here p) {reading : Reading}
    (loads : loaded room (s.disk.contentAt here p) = .ok reading) : IsUnique reading.book := by
  rcases kept.loads loads with rfl | ⟨book, keeps, rfl⟩
  · exact isUnique_nil
  · exact keeps.unique.normal

theorem IsKept.save (kept : IsKept s.disk here p) (sees : Sees place here p env)
    (unique : IsUnique book) : IsKept ((Book.save place book).run env s).2.disk here p := by
  obtain ⟨rfl, rfl⟩ := sees
  rcases saves : (Book.save place book).run env s with ⟨failure | p, u⟩
  · -- Saving that fails may have made folders, but none above a file that keeps a book.
    have failed := run_save_eq_error.mp saves
    obtain ⟨ready, unchanged⟩ := isReady_unsaved kept.ready failed
    refine ⟨ready, kept.file.imp (unchanged.trans ·) fun ⟨book', keeps⟩ => ⟨book', ?_⟩⟩
    have prepared : prepared s.disk env.here (pathOf env place) = s.disk :=
      congrArg Prod.snd keeps.makeFolders
    have same := same_of_run_saveTo_eq_error kept.ready.tree failed
    rw [prepared] at same
    exact keeps.congr same
  · obtain ⟨rfl, saved⟩ := run_save_eq_ok.mp saves
    exact ⟨(isReady_saved kept.ready saved).1, .inr ⟨book, keeps_saved kept.ready unique saved⟩⟩

theorem IsKept.request (kept : IsKept s.disk here p) (sees : Sees place here p env)
    (request : Request) : IsKept ((request.act place).run env s).2.disk here p := by
  rw [request.sameDisk_act place env s, Request.commit, run_bind]
  have begins := request.disk_begin place env s
  rcases begun : (request.begin place).run env s with ⟨failure | ⟨plan, loaded⟩, t⟩ <;>
    rw [begun] at begins
  · exact begins.symm ▸ kept
  · -- The book that is revised was loaded from the file, so that its names are unique.
    obtain ⟨plans, reading, loads, rfl⟩ := Request.run_begin_eq_ok begun
    rw [sees.1, sees.2] at loads
    have unique := kept.isUnique loads
    dsimp only
    rcases plan.run_finish place reading.book env t with
      ⟨revised, v, revises, same, saves⟩ | ⟨failure, v, fails, same, -⟩
    · rw [saves]
      have kept' : IsKept v.disk here p := (same.trans begins).symm ▸ kept
      exact kept'.save sees (unique.revises plans.isSound revises)
    · rw [fails]
      exact (same.trans begins).symm ▸ kept

theorem IsKept.clear (kept : IsKept s.disk here p) (sees : Sees place here p env)
    (isSure : Bool) : IsKept ((runClear isSure place).run env s).2.disk here p := by
  rw [sameDisk_runClear isSure place env s]
  obtain ⟨rfl, rfl⟩ := sees
  rcases run_commitClear isSure place env s with ⟨v, same, commits⟩ | ⟨outcome, v, commits, same, -⟩
  · rw [commits, run_bind]
    rcases cleared : (Book.clear (pathOf env place)).run env v with ⟨failure | ⟨⟩, w⟩
    · obtain rfl := run_change_eq_error cleared
      exact same.symm ▸ kept
    · obtain ⟨ready, none, -⟩ := isReady_cleared (same.symm ▸ kept.ready) cleared
      exact ⟨ready, .inl none⟩
  · rw [commits]
    exact same.symm ▸ kept

/-- Every call keeps the file. -/
theorem IsKept.call (kept : IsKept s.disk here p) {c : Call} (sees : Sees place here p c.env) :
    IsKept (c.run place s).disk here p := by
  obtain ⟨env, input, order⟩ := c
  have start : IsKept (Call.start ⟨env, input, order⟩ s).disk here p := kept
  cases order with
  | revise request => exact start.request sees request
  | clear isSure =>
    have last : (Call.run place ⟨env, input, .clear isSure⟩ s).disk
        = ((runClear isSure place).run env { s with input }).2.disk :=
      SameDisk.followed (fun _ => .pure ()) env { s with input }
    rw [last]
    exact start.clear sees isSure

/-- Calls keep a file that is missing at first. -/
theorem isKept_runAll {calls : List Call} (tree : s.disk.IsTree)
    (missing : ∀ content, s.disk.find? (Disk.resolve here p) ≠ some (.file content))
    (sees : ∀ c ∈ calls, Sees place here p c.env) : IsKept (runAll place calls s).disk here p := by
  have start : IsKept s.disk here p := by
    refine ⟨⟨tree, fun content found => absurd found (missing content)⟩, .inl ?_⟩
    cases content : s.disk.fileAt here p with
    | none => rfl
    | some bytes => exact absurd (Disk.find?_of_fileAt content) (missing bytes)
  clear tree missing
  induction calls generalizing s with
  | nil => exact start
  | cons c calls ih =>
    rw [List.forall_mem_cons] at sees
    exact ih sees.2 (start.call sees.1)

end Book

end Grimoire
