import Grimoire.Proofs.Book.Storable
import Grimoire.Proofs.Disk.Passing

/-!
# What saving leaves alone

Wherever saving stops, nothing is left of it but folders on the way to the file: the file beside is
taken away again, and what lies at the path stays until it is replaced in one step. Saving that
succeeds has changed the file besides (`Book.saveTo_frame`). It succeeds exactly where those folders
can be made, the way to the file is open, and the text of the book can be encoded
(`Book.run_saveTo_iff`).
-/

namespace Grimoire.Book

open Act Disk

variable {env : Env} {s u : State} {d e : Disk} {here : Route} {p : Path} {book : Book}
variable {bytes : Bytes}

/-- The folders that saving makes lie on the way to the file. -/
theorem madeAt_prepared (d : Disk) (here : Route) (p : Path) (q : Route) :
    MadeAt (Passes here p.parent) d (prepared d here p) q :=
  madeAt_foldersOf d here p.parent q

/-- The way to a file was open if a book got into it. -/
theorem Writes.wasOpen (writes : Writes d here p book bytes e) (tree : d.IsTree) :
    IsOpen d here p := by
  obtain ⟨target, ends, located, stored⟩ := writes.stored tree
  obtain ⟨n, first, name, -⟩ := writes.replaced
  exact ⟨writes.folder, ends, ⟨target, located, stored.free⟩, n, first, name⟩

/-- When saving succeeds. -/
theorem run_saveTo_iff (tree : s.disk.IsTree) :
    (∃ u, (saveTo p book).run env s = (.ok (), u)) ↔
      (s.disk.makeFolders env.here p.anchor p.parent.names.reverse).1 = .ok () ∧
        IsOpen (prepared s.disk env.here p) env.here p ∧ IsEncodable book := by
  constructor
  · rintro ⟨u, saves⟩
    obtain ⟨made, bytes, writes⟩ := run_saveTo_eq_ok saves
    have tree' := (adds_makeFolders env.here p.anchor p.parent.names.reverse).1.tree tree
    obtain ⟨t, texted, encoded⟩ := writes.text
    exact ⟨made, writes.wasOpen tree', t, bytes, texted, encoded⟩
  · rintro ⟨made, isOpen, t, bytes, texted, encoded⟩
    obtain ⟨e, writes⟩ := isOpen.writes texted encoded
    obtain ⟨u, saves, -⟩ := run_saveTo_of_writes made writes
    exact ⟨u, saves⟩

/-- What is left where saving failed. -/
theorem madeAt_unsaved (tree : s.disk.IsTree) {failure : Failure}
    (failed : (saveTo p book).run env s = (.error failure, u)) (q : Route) :
    MadeAt (Passes env.here p.parent) s.disk u.disk q := by
  have same := same_of_run_saveTo_eq_error tree failed q
  rw [MadeAt, same]
  exact madeAt_prepared s.disk env.here p q

/-- What a book that got into a file leaves at other routes. -/
theorem madeAt_saved (tree : s.disk.IsTree) (saved : (saveTo p book).run env s = (.ok (), u)) :
    (∃ t bytes, text book = .ok t ∧ Utf8.encode t = some bytes ∧
      s.disk.find? (resolve env.here p) ≠ some .folder ∧
      u.disk.find? (resolve env.here p) = some (.file bytes)) ∧
    ∀ q, q ≠ resolve env.here p → MadeAt (Passes env.here p.parent) s.disk u.disk q := by
  obtain ⟨-, bytes, writes⟩ := run_saveTo_eq_ok saved
  have adds := (adds_makeFolders (d := s.disk) env.here p.anchor p.parent.names.reverse).1
  obtain ⟨target, -, located, stored⟩ := writes.stored (adds.tree tree)
  obtain rfl := locate_eq_resolve located
  obtain ⟨t, texted, encoded⟩ := writes.text
  refine ⟨⟨t, bytes, texted, encoded, fun folder => ?_, ?_⟩, fun q other => ?_⟩
  · exact stored.free ((madeAt_prepared s.disk env.here p _).kept folder)
  · rw [stored.eq, if_pos rfl]
  · rw [MadeAt, stored.eq, if_neg other]
    exact madeAt_prepared s.disk env.here p q

/-- Saving that fails leaves everything as it was but for folders that were made on the way to the
file. Saving that succeeds leaves the text of the book in the file besides. Which of the two it is
depends on the folders, on what lies at the path, and on whether the text can be encoded. -/
theorem saveTo_frame (tree : s.disk.IsTree) :
    (∀ failure u, (saveTo p book).run env s = (.error failure, u) →
      ∀ q, MadeAt (Passes env.here p.parent) s.disk u.disk q) ∧
    (∀ u, (saveTo p book).run env s = (.ok (), u) →
      (∃ t bytes, text book = .ok t ∧ Utf8.encode t = some bytes ∧
        s.disk.find? (resolve env.here p) ≠ some .folder ∧
        u.disk.find? (resolve env.here p) = some (.file bytes)) ∧
      ∀ q, q ≠ resolve env.here p → MadeAt (Passes env.here p.parent) s.disk u.disk q) ∧
    ((∃ u, (saveTo p book).run env s = (.ok (), u)) ↔
      (s.disk.makeFolders env.here p.anchor p.parent.names.reverse).1 = .ok () ∧
        IsOpen (prepared s.disk env.here p) env.here p ∧ IsEncodable book) :=
  ⟨fun _ _ failed q => madeAt_unsaved tree failed q, fun _ saved => madeAt_saved tree saved,
    run_saveTo_iff tree⟩

/-- A spell that cannot be encoded is not saved. The folder for the file has been made by then, and is
all that is new. The sample spell gets into the same file. -/
theorem saveTo_frame_surrogate :
    ∃ failure u t, (saveTo ⟨.here, ["data", "spells.json"]⟩ [(surrogateSpell.id, surrogateSpell)]).run
        Env.sample State.empty = (.error failure, u) ∧
      u.disk = ⟨[([Name.ofText "data"], .folder)]⟩ ∧
      (∀ q, MadeAt (Passes [] ⟨.here, ["data"]⟩) State.empty.disk u.disk q) ∧
      (saveTo ⟨.here, ["data", "spells.json"]⟩ [(Spell.sample.id, Spell.sample)]).run
        Env.sample State.empty = (.ok (), t) ∧
      ∀ q : Route, q ≠ [Name.ofText "data", Name.ofText "spells.json"] →
        MadeAt (Passes [] ⟨.here, ["data"]⟩) State.empty.disk t.disk q := by
  have fails : ((saveTo ⟨.here, ["data", "spells.json"]⟩
      [(surrogateSpell.id, surrogateSpell)]).run Env.sample State.empty).1.isOk = false := by
    decide +kernel
  have made : ((saveTo ⟨.here, ["data", "spells.json"]⟩
      [(surrogateSpell.id, surrogateSpell)]).run Env.sample State.empty).2.disk
        = ⟨[([Name.ofText "data"], .folder)]⟩ := by
    decide +kernel
  have saves : ((saveTo ⟨.here, ["data", "spells.json"]⟩
      [(Spell.sample.id, Spell.sample)]).run Env.sample State.empty).1.isOk = true := by
    decide +kernel
  obtain ⟨⟨⟩, t, saved⟩ := run_eq_ok_of_isOk saves
  obtain ⟨failure, u, failed⟩ := run_eq_error_of_isOk fails
  rw [failed] at made
  exact ⟨failure, u, t, failed, made, (saveTo_frame State.isTree_empty).1 failure u failed, saved,
    ((saveTo_frame State.isTree_empty).2.1 t saved).2⟩

end Grimoire.Book
