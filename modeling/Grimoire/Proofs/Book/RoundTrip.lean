import Grimoire.Proofs.Book.Sample
import Grimoire.Proofs.Spell.NormalForm

/-!
# Saving, loading and saving again

A book that was saved loads again (`Book.loadFrom_saveTo`): nothing is rejected, the spells stand in
the same order under the same identifiers, look the same on the wire, and saving what was loaded
writes the same bytes. Only what the wire does not show in the first place is lost: numbers that are
not finite, and keys of schemas and names of headers that cannot be encoded
(`Book.loadFrom_saveTo_mended`).
-/

namespace Grimoire

namespace Book

open Act

/-- What reading gives back of an entry: its key, its wire form, and the spell itself exactly if this
loses nothing on the wire. -/
structure ReadsAs (e f : Text × Spell) : Prop where
  key : f.1 = e.1
  wire : ∃ v, e.2.wire? = .ok v ∧ f.2.wire? = .ok v
  same : f.2 = e.2 ↔ e.2.isNormal = true

theorem readsAs_normal {book : Book} (wirable : ∀ e ∈ book, e.2.isWirable = true)
    (checked : ∀ e ∈ book, e.2.IsChecked) : List.Forall₂ ReadsAs book (normal book) := by
  induction book with
  | nil => exact .nil
  | cons e book ih =>
    rw [List.forall_mem_cons] at wirable checked
    have wired : e.2.wire? = .ok e.2.wire := Spell.wire?_eq_ok_iff.mpr ⟨wirable.1, rfl⟩
    refine .cons ⟨rfl, ⟨e.2.wire, wired, Spell.wire?_normal wired⟩, ?_⟩ (ih wirable.2 checked.2)
    exact Spell.normal_eq_self_iff checked.1.rules.2

/-- A book that was saved loads again, entry by entry, with nothing rejected; and saving what was
loaded succeeds and leaves the same bytes in the file. -/
theorem loadFrom_saveTo {p : Path} {book : Book} {env : Env} {s t : State} (tree : s.disk.IsTree)
    (lawful : IsLawful book) (saved : (saveTo p book).run env s = (.ok (), t)) :
    ∃ reading u v bytes, (loadFrom p).run env t = (.ok reading, u) ∧ reading.rejected = [] ∧
      List.Forall₂ ReadsAs book reading.book ∧
      (saveTo p reading.book).run env u = (.ok (), v) ∧
      t.disk.fileAt env.here p = some bytes ∧ v.disk.fileAt env.here p = some bytes := by
  obtain ⟨made, bytes, writes⟩ := run_saveTo_eq_ok saved
  have adds := Disk.adds_makeFolders (d := s.disk) env.here p.anchor p.parent.names.reverse
  have tree' : (prepared s.disk env.here p).IsTree := adds.1.tree tree
  obtain ⟨t', texted, encoded⟩ := writes.text
  obtain ⟨wirable, -, -⟩ := text_eq_ok texted
  obtain ⟨u, loads⟩ : ∃ u, (loadFrom p).run env t = (.ok ⟨normal book, []⟩, u) :=
    ⟨_, Prod.ext ((run_loadFrom p env t).1.trans (writes.loaded tree' lawful)) rfl⟩
  have unchanged : u.disk = t.disk := by
    have logs := (run_loadFrom p env t).2
    rw [loads] at logs
    exact logs.disk
  have again : text (normal book) = text book := (text_normal texted).trans texted.symm
  obtain ⟨f, writes'⟩ := writes.again tree' again
  -- The folder is there by now, so nothing more is made.
  have present : u.disk.makeFolders env.here p.anchor p.parent.names.reverse
      = (.ok (), u.disk) := by
    refine Disk.makeFolders_of_hasFolder fun nonempty => ?_
    obtain ⟨target, -, -, stored⟩ := writes.stored tree'
    rw [unchanged, stored.hasFolder]
    exact adds.2 made nonempty
  have ready : prepared u.disk env.here p = t.disk := (congrArg Prod.snd present).trans unchanged
  obtain ⟨v, saves, rfl⟩ := run_saveTo_of_writes (congrArg Prod.fst present)
    (ready.symm ▸ writes')
  exact ⟨_, u, v, bytes, loads, rfl, readsAs_normal wirable lawful.checked, saves, writes.fileAt tree',
    writes'.fileAt (writes.tree tree')⟩

/-- A spell with a number that is not finite, saved on a disk with nothing on it. -/
theorem loadFrom_saveTo_empty :
    ∃ t reading u v bytes,
      (saveTo (Path.ofText "data/spells.json") [(Spell.sample.id, Spell.sample)]).run Env.sample
        State.empty = (.ok (), t) ∧
      (loadFrom (Path.ofText "data/spells.json")).run Env.sample t = (.ok reading, u) ∧
      reading.rejected = [] ∧
      List.Forall₂ ReadsAs [(Spell.sample.id, Spell.sample)] reading.book ∧
      (saveTo (Path.ofText "data/spells.json") reading.book).run Env.sample u = (.ok (), v) ∧
      t.disk.fileAt Env.sample.here (Path.ofText "data/spells.json") = some bytes ∧
      v.disk.fileAt Env.sample.here (Path.ofText "data/spells.json") = some bytes := by
  have ends : ((saveTo (Path.ofText "data/spells.json") [(Spell.sample.id, Spell.sample)]).run
      Env.sample State.empty).1.isOk = true := by decide +kernel
  obtain ⟨⟨⟩, t, saved⟩ := run_eq_ok_of_isOk ends
  obtain ⟨reading, u, v, bytes, h⟩ := loadFrom_saveTo State.isTree_empty isLawful_sample saved
  exact ⟨t, reading, u, v, bytes, saved, h⟩

/-- A spell with finite numbers and a key that cannot be encoded is saved, and another spell is
loaded. -/
theorem loadFrom_saveTo_mended :
    Spell.surrogateKeyed.isFinite = true ∧
    ((do
      saveTo (Path.ofText "spells.json") [(Spell.surrogateKeyed.id, Spell.surrogateKeyed)]
      return (← loadFrom (Path.ofText "spells.json")).book).run Env.sample State.empty).1
        = .ok [(Spell.surrogateKeyed.id, Spell.surrogateKeyed.normal)] ∧
    Spell.surrogateKeyed.normal ≠ Spell.surrogateKeyed := by
  decide +kernel

end Book

end Grimoire
