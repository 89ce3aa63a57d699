import Grimoire.Proofs.Book.Requests

/-!
# The place of a book

Where a path reaches the file that it leads to, that file is changed by saving that succeeds
(`Book.isReady_saved`) and by clearing (`Book.isReady_cleared`), and by nothing else: saving that
fails leaves it as it was (`Book.isReady_unsaved`). What loading gives depends on this file alone
(`Book.loaded_contentAt`).
-/

namespace Grimoire

namespace Disk

variable {d e : Disk} {here : Route} {p : Path}

/-- Whether a disk is a tree on which a path reaches the file that it leads to. A path that goes up
again behind a missing folder does not. -/
structure IsReady (d : Disk) (here : Route) (p : Path) : Prop where
  tree : d.IsTree
  reached : ∀ content, d.find? (resolve here p) = some (.file content) →
    d.fileAt here p = some content

theorem find?_of_fileAt {content : Bytes} (file : d.fileAt here p = some content) :
    d.find? (resolve here p) = some (.file content) := by
  obtain ⟨r, located, found⟩ := fileAt_eq_some.mp file
  rw [← locate_eq_resolve located, found]

/-- Folders that are added do not show in the file. -/
theorem IsReady.fileAt_adds (ready : d.IsReady here p) (adds : Adds d e) :
    e.fileAt here p = d.fileAt here p := by
  apply Option.ext
  intro content
  constructor
  · exact fun file => ready.reached content (adds.folders _ _ (find?_of_fileAt file))
  · intro file
    obtain ⟨r, located, found⟩ := fileAt_eq_some.mp file
    exact fileAt_eq_some.mpr ⟨r, locate_mono (fun q => adds.kept q _) located, adds.kept _ _ found⟩

theorem IsReady.adds (ready : d.IsReady here p) (adds : Adds d e) : e.IsReady here p := by
  refine ⟨adds.tree ready.tree, fun content found => ?_⟩
  rw [ready.fileAt_adds adds]
  exact ready.reached content (adds.folders _ _ found)

theorem IsReady.congr (ready : d.IsReady here p) (same : Same d e) : e.IsReady here p := by
  refine ⟨ready.tree.congr same, fun content found => ?_⟩
  rw [fileAt_congr same]
  exact ready.reached content ((same _).symm.trans found)

/-- What a walk meets has a number. -/
theorem number_of_walk {r : Route} {names : List Name} {obstacle : Obstacle}
    (h : walk d r names = .error obstacle) : obstacle.number?.isSome = true := by
  induction names generalizing r with
  | nil => exact absurd h (by simp [walk])
  | cons name names ih =>
    rw [walk] at h
    split at h
    · rw [← Except.error.inj h]
      rfl
    · rw [← Except.error.inj h]
      rfl
    · split at h
      · exact ih h
      · split at h
        · rw [← Except.error.inj h]
          rfl
        · exact ih h

/-- What stands in the way of a file has a number, unless the path cannot be asked for. -/
theorem contentAt_eq_error {error : DiskError} (h : d.contentAt here p = .error error) :
    (∃ o, refusal? p = some o ∧ error = ⟨o, p⟩) ∨
      (refusal? p = none ∧ error.obstacle.number?.isSome = true) := by
  unfold contentAt at h
  split at h
  · next failed located =>
    obtain rfl := Except.error.inj h
    unfold locate at located
    split at located
    · next o refused => exact .inl ⟨o, refused, (Except.error.inj located).symm⟩
    · next accepted =>
      refine .inr ⟨Option.eq_none_iff_forall_not_mem.mpr accepted, ?_⟩
      split at located
      · rw [← Except.error.inj located]
        rfl
      · split at located
        · exact absurd located (by simp)
        · next walked =>
          rw [← Except.error.inj located]
          exact number_of_walk walked
  · next r located =>
    refine .inr ⟨(locate_eq_ok.mp located).1, ?_⟩
    split at h
    · rw [← Except.error.inj h]
      rfl
    · rw [← Except.error.inj h]
      rfl
    · exact absurd h (by simp)

/-- Why a path cannot be asked for has no number. -/
theorem number_of_refusal {o : Obstacle} (refused : refusal? p = some o) : o.number? = none := by
  unfold refusal? at refused
  split at refused
  · obtain rfl := Option.some.inj refused
    rfl
  · split at refused
    · obtain rfl := Option.some.inj refused
      rfl
    · exact absurd refused (by simp)

end Disk

namespace Book

open Act

variable {env : Env} {s u : State} {p : Path} {book : Book} {room : Json.Room}

/-- Loading depends on the file alone; where there is none, the book is empty, unless the path cannot be
asked for. -/
theorem loaded_contentAt (d : Disk) (here : Route) (p : Path) :
    loaded room (d.contentAt here p) =
      match d.fileAt here p, Disk.refusal? p with
      | some bytes, _ => loaded room (.ok bytes)
      | none, some o => .error (.disk ⟨o, p⟩)
      | none, none => .ok ⟨[], []⟩ := by
  cases content : d.contentAt here p with
  | ok bytes => simp [Disk.fileAt, content, Except.toOption]
  | error error =>
    have none : d.fileAt here p = none := by simp [Disk.fileAt, content, Except.toOption]
    rw [none]
    rcases Disk.contentAt_eq_error content with ⟨o, refused, rfl⟩ | ⟨accepted, number⟩
    · have unnumbered := Disk.number_of_refusal refused
      rw [refused]
      cases o <;> first | rfl | exact absurd unnumbered (by simp [Obstacle.number?])
    · rw [accepted]
      obtain ⟨obstacle, q⟩ := error
      cases obstacle <;> first | rfl | exact absurd number (by simp [Obstacle.number?])

theorem eq_of_loaded_absent {d : Disk} {here : Route} {reading : Reading}
    (absent : d.fileAt here p = none) (loads : loaded room (d.contentAt here p) = .ok reading) :
    reading = ⟨[], []⟩ := by
  rw [loaded_contentAt, absent] at loads
  cases refused : Disk.refusal? p with
  | some o =>
    rw [refused] at loads
    exact absurd loads (by simp)
  | none =>
    rw [refused] at loads
    exact (Except.ok.inj loads).symm

theorem loaded_congr {d e : Disk} {here : Route} (same : e.fileAt here p = d.fileAt here p) :
    loaded room (e.contentAt here p) = loaded room (d.contentAt here p) := by
  rw [loaded_contentAt, loaded_contentAt, same]

theorem isReady_prepared {d : Disk} {here : Route} (ready : d.IsReady here p) :
    (prepared d here p).IsReady here p :=
  ready.adds (Disk.adds_makeFolders here p.anchor p.parent.names.reverse).1

/-- After saving, the file holds the text of the book. -/
theorem isReady_saved (ready : s.disk.IsReady env.here p)
    (h : (saveTo p book).run env s = (.ok (), u)) :
    u.disk.IsReady env.here p ∧ ∃ t bytes, text book = .ok t ∧ Utf8.encode t = some bytes ∧
      u.disk.fileAt env.here p = some bytes := by
  obtain ⟨-, bytes, writes⟩ := run_saveTo_eq_ok h
  have tree := (isReady_prepared ready).tree
  have file := writes.fileAt tree
  obtain ⟨t, texted, encoded⟩ := writes.text
  refine ⟨⟨writes.tree tree, fun content found => ?_⟩, t, bytes, texted, encoded, file⟩
  rw [file]
  simpa using (Disk.find?_of_fileAt file).symm.trans found

/-- Saving that fails leaves the file as it was. -/
theorem isReady_unsaved (ready : s.disk.IsReady env.here p) {failure : Failure}
    (h : (saveTo p book).run env s = (.error failure, u)) :
    u.disk.IsReady env.here p ∧ u.disk.fileAt env.here p = s.disk.fileAt env.here p := by
  have same := same_of_run_saveTo_eq_error ready.tree h
  refine ⟨(isReady_prepared ready).congr same, (Disk.fileAt_congr same).trans ?_⟩
  exact ready.fileAt_adds (Disk.adds_makeFolders env.here p.anchor p.parent.names.reverse).1

theorem isReady_removed {d e : Disk} {here r : Route} (ready : d.IsReady here p)
    (located : d.locate here p = .ok r) (file : d.find? r ≠ some .folder)
    (removed : ∀ q, e.find? q = if q = r then none else d.find? q) :
    e.IsReady here p ∧ e.fileAt here p = none := by
  have missing : ∀ content, e.find? (Disk.resolve here p) ≠ some (.file content) := by
    intro content found
    rw [removed, if_pos (Disk.locate_eq_resolve located).symm] at found
    exact absurd found (by simp)
  refine ⟨⟨?_, fun content found => absurd found (missing content)⟩, ?_⟩
  · intro q entry nonempty found
    rw [removed] at found ⊢
    split at found
    · exact absurd found (by simp)
    · have folder := ready.tree q entry nonempty found
      split
      · next same => exact absurd (same ▸ folder) file
      · exact folder
  · cases content : e.fileAt here p with
    | none => rfl
    | some content' => exact absurd (Disk.find?_of_fileAt content) (missing content')

/-- After clearing, there is no file. -/
theorem isReady_cleared (ready : s.disk.IsReady env.here p)
    (h : (clear p).run env s = (.ok (), u)) :
    u.disk.IsReady env.here p ∧ u.disk.fileAt env.here p = none ∧ Disk.refusal? p = none := by
  obtain ⟨disk, removed, rfl⟩ := run_change_eq_ok.mp h
  have plain : Disk.refusal? p = none := by
    cases refused : Disk.refusal? p with
    | none => rfl
    | some o =>
      have unnumbered := Disk.number_of_refusal refused
      have located := Disk.locate_of_refusal refused s.disk env.here
      cases o with
      | nul | unencodable => simp only [Disk.removeFile, located, reduceCtorEq] at removed
      | _ => exact absurd unnumbered (by simp [Obstacle.number?])
  rcases Disk.find?_removeFile ready.tree removed with
    ⟨same, none⟩ | ⟨r, located, file, changed⟩
  · exact ⟨ready.congr same, (Disk.fileAt_congr same).trans none, plain⟩
  · obtain ⟨ready', none⟩ := isReady_removed ready located file changed
    exact ⟨ready', none, plain⟩

/-- The command that clears takes the file away, or leaves it as it is. -/
theorem isReady_runClear {place : Option Text} {here : Route} (isSure : Bool)
    (sees : Sees place here p env)
    (ready : s.disk.IsReady here p) :
    let t := ((Command.runClear isSure place).run env s).2
    t.disk.IsReady here p ∧
      ((((commitClear isSure place).run env s).1 = .ok true ∧ t.disk.fileAt here p = none ∧
          Disk.refusal? p = none) ∨
        (((commitClear isSure place).run env s).1 ≠ .ok true ∧
          t.disk.fileAt here p = s.disk.fileAt here p)) := by
  intro t
  have same : t.disk = ((commitClear isSure place).run env s).2.disk :=
    sameDisk_runClear isSure place env s
  obtain ⟨rfl, rfl⟩ := sees
  rw [same]
  rcases run_commitClear isSure place env s with ⟨v, kept, commits⟩ |
    ⟨outcome, v, commits, kept, other⟩
  · rw [commits, run_bind]
    rcases cleared : (clear (pathOf env place)).run env v with ⟨failure | ⟨⟩, w⟩
    · obtain rfl := run_change_eq_error cleared
      exact ⟨kept.symm ▸ ready, .inr ⟨by simp, by rw [kept]⟩⟩
    · obtain ⟨ready', none, plain⟩ := isReady_cleared (kept.symm ▸ ready) cleared
      exact ⟨ready', .inl ⟨rfl, none, plain⟩⟩
  · rw [commits]
    exact ⟨kept.symm ▸ ready, .inr ⟨other, by rw [kept]⟩⟩

end Book

end Grimoire
