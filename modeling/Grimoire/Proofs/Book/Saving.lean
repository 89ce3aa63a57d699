import Grimoire.Proofs.Act
import Grimoire.Proofs.Book.Reading
import Grimoire.Proofs.Disk.Steps

/-!
# Saving and loading

What loading gives depends on the file alone (`Book.run_loadFrom`). Saving writes the text of the
book into the file and changes no other file (`Book.run_saveTo_eq_ok`, `Book.Writes.stored`); where
it fails, at most some folders have been made (`Book.same_of_run_saveTo_eq_error`).
-/

namespace Grimoire

namespace Book

open Act

variable {room : Json.Room}

/-! ## Loading -/

/-- What loading gives for the content of the file, or for what stands in the way of it. -/
def loaded (room : Json.Room) (content : Except DiskError Bytes) : Except Failure Reading :=
  match found room content with
  | .error failure => .error failure
  | .ok (.items items) => .ok (ofItems items)
  | .ok _ => .ok ⟨[], []⟩

theorem logs_noteRejected (p : Path) (rejected : List (Nat × Nat)) (env : Env) (s : State) :
    ∃ t, (rejected.forM fun (position, problems) => noteRejected p position problems).run env s
      = (.ok (), t) ∧ s.Logs t := by
  induction rejected generalizing s with
  | nil => exact ⟨s, rfl, State.Logs.refl s⟩
  | cons r rejected ih =>
    have note : ∃ t, (noteRejected p r.1 r.2).run env s = (.ok (), t) ∧ s.Logs t :=
      ⟨_, rfl, _, rfl⟩
    obtain ⟨t, first, logs⟩ := note
    obtain ⟨u, rest, logs'⟩ := ih t
    exact ⟨u, run_bind_eq_ok.mpr ⟨(), t, first, rest⟩, logs.trans logs'⟩

/-- Loading depends on the file alone, and only notes what it finds. -/
theorem run_loadFrom (p : Path) (env : Env) (s : State) :
    ((loadFrom p).run env s).1 = loaded env.rooms.book (s.disk.contentAt env.here p) ∧
      s.Logs ((loadFrom p).run env s).2 := by
  rw [loadFrom, run_bind, run_env]
  dsimp only
  rw [run_bind, run_state]
  dsimp only [loaded]
  cases found env.rooms.book (s.disk.contentAt env.here p) with
  | error failure => exact ⟨rfl, State.Logs.refl s⟩
  | ok found =>
    cases found with
    | nothing => exact ⟨rfl, State.Logs.refl s⟩
    | unreadable error => exact ⟨rfl, _, rfl⟩
    | notArray => exact ⟨rfl, _, rfl⟩
    | items items =>
      obtain ⟨t, noted, logs⟩ := logs_noteRejected p (ofItems items).rejected env s
      dsimp only
      rw [run_bind, noted]
      exact ⟨rfl, logs⟩

/-- The items that are found have no object with a key twice. -/
theorem isProper_of_found {content : Except DiskError Bytes} {items : List Json}
    (h : found room content = .ok (.items items)) : (Json.arr items).isProper = true := by
  unfold found at h
  split at h
  · split at h
    · unfold foundInText at h
      split at h
      · next items' read =>
        obtain rfl : items' = items := by simpa using h
        exact Json.isProper_of_read read
      · exact absurd h (by simp)
      · exact absurd h (by simp)
      · exact absurd h (by simp)
    · exact absurd h (by simp)
  · exact absurd h (by simp)
  · split at h <;> exact absurd h (by simp)

/-- What loading gives is lawful. -/
theorem isLawful_loaded {content : Except DiskError Bytes} {reading : Reading}
    (h : loaded room content = .ok reading) : IsLawful reading.book := by
  unfold loaded at h
  split at h
  · exact absurd h (by simp)
  · next items found =>
    obtain rfl := Except.ok.inj h
    exact isLawful_ofItems (isProper_of_found found)
  · obtain rfl := Except.ok.inj h
    exact isLawful_nil

/-! ## The file beside -/

/-- The name of the file that is written first, with a number. -/
def besideRoute (here : Route) (p : Path) (n : Nat) : Route :=
  Disk.numberedRoute (Disk.resolve here p.parent) ("." ++ p.name ++ ".") ".tmp" n

/-- Whether a number is the first one under which a file beside a path is new. -/
def IsFirstFree (d : Disk) (here : Route) (p : Path) (n : Nat) : Prop :=
  d.find? (besideRoute here p n) = none ∧ ∀ m < n, d.find? (besideRoute here p m) ≠ none

theorem IsFirstFree.unique {d : Disk} {here : Route} {p : Path} {m n : Nat}
    (first : IsFirstFree d here p m) (second : IsFirstFree d here p n) : m = n := by
  rcases Nat.lt_trichotomy m n with less | same | less
  · exact absurd first.1 (second.2 m less)
  · exact same
  · exact absurd second.1 (first.2 n less)

theorem besideRoute_ne_nil (here : Route) (p : Path) (n : Nat) : besideRoute here p n ≠ [] := by
  simp [besideRoute, Disk.numberedRoute]

/-- Whether a file may have a name. -/
structure IsFileName (name : Text) : Prop where
  nameable : Name.isNameable name = true
  nul : name.contains (.scalar '\x00') = false
  short : Disk.nameSize (Path.text ⟨.here, [name]⟩) ≤ 4095
  brief : Disk.nameSize name ≤ 255

theorem locate_name {d : Disk} {folder r : Route} {name : Text} (plain : name ≠ "..") :
    d.locate folder ⟨.here, [name]⟩ = .ok r ↔
      IsFileName name ∧ d.find? folder = some .folder ∧ r = folder ++ [Name.ofText name] := by
  have accepted : Disk.refusal? ⟨.here, [name]⟩ = none ↔
      Name.isNameable name = true ∧ name.contains (.scalar '\x00') = false := by
    rw [Disk.refusal?_eq_none_iff, List.all_cons, List.all_nil, List.any_cons, List.any_nil,
      Bool.and_true, Bool.or_false]
  have one : Disk.names ⟨.here, [name]⟩ = [Name.ofText name] := rfl
  rw [Disk.locate_eq_ok, if_pos rfl, accepted, one, Disk.walk_cons_eq_ok]
  constructor
  · rintro ⟨⟨nameable, nul⟩, short, folder, brief, last⟩
    have down : Name.ofText name ≠ Name.up := fun up =>
      plain ((Name.ofText_eq_up_iff nameable).mp up)
    rw [Disk.follow, if_neg down] at last
    exact ⟨⟨nameable, nul, short, brief.resolve_left down⟩, folder, (Except.ok.inj last).symm⟩
  · rintro ⟨⟨nameable, nul, short, brief⟩, folder, rfl⟩
    have down : Name.ofText name ≠ Name.up := fun up =>
      plain ((Name.ofText_eq_up_iff nameable).mp up)
    refine ⟨⟨nameable, nul⟩, short, folder, .inr brief, ?_⟩
    rw [Disk.follow, if_neg down, Disk.walk]

theorem numberedName_ne_up (front : Text) (n : Nat) : Disk.numberedName front ".tmp" n ≠ ".." := by
  intro same
  have length := Disk.length_numberedName front ".tmp" n
  rw [same] at length
  have tmp : (Name.ofText ".tmp").length = 4 := by decide
  have up : (Name.ofText "..").length = 2 := by decide
  omega

/-- The file beside a path is made under the first name that is free. -/
theorem run_makeBeside_eq_ok {p : Path} {env : Env} {s t : State} {source : Route} :
    (makeBeside p).run env s = (.ok source, t) ↔
      ∃ n, IsFirstFree s.disk env.here p n ∧ source = besideRoute env.here p n ∧
        IsFileName (Disk.numberedName ("." ++ p.name ++ ".") ".tmp" n) ∧
        s.disk.find? (Disk.resolve env.here p.parent) = some .folder ∧
        t = { s with disk := s.disk.put source (.file []) } := by
  obtain ⟨n, name, first⟩ := Disk.freeName_eq s.disk (Disk.resolve env.here p.parent)
    ("." ++ p.name ++ ".") ".tmp"
  have plain := numberedName_ne_up ("." ++ p.name ++ ".") n
  rw [makeBeside, run_bind, run_env]
  dsimp only
  rw [run_bind, run_state]
  dsimp only
  rw [name, run_bind_eq_ok]
  constructor
  · rintro ⟨⟨⟩, u, changed, last⟩
    obtain ⟨disk, put, rfl⟩ := run_change_eq_ok.mp changed
    obtain ⟨route, rfl⟩ := Prod.mk.inj ((run_pure _ _ _).symm.trans last)
    obtain rfl := Except.ok.inj route
    unfold Disk.putContent at put
    split at put
    · exact absurd put (by simp)
    · next r located =>
      obtain ⟨fits, folder, rfl⟩ := (locate_name plain).mp located
      refine ⟨n, first, rfl, fits, folder, ?_⟩
      split at put
      · exact absurd put (by simp)
      · rw [← Except.ok.inj put]
  · rintro ⟨m, other, rfl, fits, folder, rfl⟩
    obtain rfl := other.unique first
    have located := (locate_name (d := s.disk) plain).mpr ⟨fits, folder, rfl⟩
    refine ⟨(), _, run_change_eq_ok.mpr ⟨_, ?_, rfl⟩, rfl⟩
    have free : s.disk.find? (Disk.resolve env.here p.parent
        ++ [Name.ofText (Disk.numberedName ("." ++ p.name ++ ".") ".tmp" m)]) = none := first.1
    simp only [Disk.putContent, located, free]
    rfl

theorem run_makeBeside_eq_error {p : Path} {env : Env} {s t : State} {failure : Failure}
    (h : (makeBeside p).run env s = (.error failure, t)) : t = s := by
  rw [makeBeside, run_bind, run_env] at h
  dsimp only at h
  rw [run_bind, run_state] at h
  dsimp only at h
  rcases run_bind_eq_error.mp h with failed | ⟨⟨⟩, u, -, last⟩
  · exact run_change_eq_error failed
  · exact absurd last (by simp [run_pure])

/-! ## Saving -/

/-- The disk on which the folder of a path has been made. -/
def prepared (d : Disk) (here : Route) (p : Path) : Disk :=
  (d.makeFolders here p.anchor p.parent.names.reverse).2

/-- The disk with a file beside a path. -/
def withBeside (d : Disk) (here : Route) (p : Path) (n : Nat) (content : Bytes) : Disk :=
  (d.put (besideRoute here p n) (.file [])).put (besideRoute here p n) (.file content)

/-- How a book gets into a file, the folder of which is there. -/
structure Writes (d : Disk) (here : Route) (p : Path) (book : Book) (bytes : Bytes) (e : Disk) :
    Prop where
  text : ∃ t, text book = .ok t ∧ Utf8.encode t = some bytes
  folder : d.find? (Disk.resolve here p.parent) = some .folder
  replaced : ∃ n, IsFirstFree d here p n ∧
    IsFileName (Disk.numberedName ("." ++ p.name ++ ".") ".tmp" n) ∧
    (withBeside d here p n bytes).replace here (besideRoute here p n) p = .ok e

theorem run_place {r : Route} {entry : Entry} {env : Env} {s : State} :
    (place r entry).run env s = (.ok (), { s with disk := s.disk.put r entry }) := rfl

theorem mapError_eq_ok {x : Except DiskError Unit} {f : DiskError → Failure} :
    x.mapError f = .ok () ↔ x = .ok () := by
  cases x <;> simp [Except.mapError]

/-- The writing of a file and its move to its place. -/
def putInPlace (p : Path) (source : Route) (t : Text) : Act Unit := do
  place source (.file (← encode t))
  change fun disk here => disk.replace here source p

theorem run_putInPlace_eq_ok {p : Path} {source : Route} {t : Text} {env : Env} {s u : State} :
    (putInPlace p source t).run env s = (.ok (), u) ↔
      ∃ bytes disk, Utf8.encode t = some bytes ∧
        (s.disk.put source (.file bytes)).replace env.here source p = .ok disk ∧
        u = { s with disk } := by
  rw [putInPlace, run_bind_eq_ok]
  constructor
  · rintro ⟨bytes, s₁, first, rest⟩
    obtain ⟨encoded, rfl⟩ := run_encode_eq_ok.mp first
    obtain ⟨⟨⟩, s₂, placed, changed⟩ := run_bind_eq_ok.mp rest
    obtain ⟨-, rfl⟩ := Prod.mk.inj (run_place.symm.trans placed)
    obtain ⟨disk, replaced, rfl⟩ := run_change_eq_ok.mp changed
    exact ⟨bytes, disk, encoded, replaced, rfl⟩
  · rintro ⟨bytes, disk, encoded, replaced, rfl⟩
    refine ⟨bytes, s, run_encode_eq_ok.mpr ⟨encoded, rfl⟩, ?_⟩
    exact run_bind_eq_ok.mpr ⟨(), _, run_place, run_change_eq_ok.mpr ⟨disk, replaced, rfl⟩⟩

theorem run_putInPlace_eq_error {p : Path} {source : Route} {t : Text} {env : Env} {s u : State}
    {failure : Failure} (h : (putInPlace p source t).run env s = (.error failure, u)) :
    u = s ∨ ∃ bytes, u = { s with disk := s.disk.put source (.file bytes) } := by
  rcases run_bind_eq_error.mp h with failed | ⟨bytes, s₁, encoded, rest⟩
  · exact .inl (run_encode_eq_error failed)
  · obtain ⟨-, rfl⟩ := run_encode_eq_ok.mp encoded
    rcases run_bind_eq_error.mp rest with failed | ⟨⟨⟩, s₂, placed, changed⟩
    · exact absurd (run_place.symm.trans failed) (by simp)
    · obtain ⟨-, rfl⟩ := Prod.mk.inj (run_place.symm.trans placed)
      exact .inr ⟨bytes, run_change_eq_error changed⟩

theorem saveTo_eq (p : Path) (book : Book) : saveTo p book = (do
    makeFolders p.parent
    let t ← Act.ofExcept (text book)
    let temporary ← makeBeside p
    orRemove temporary (putInPlace p temporary t)
    note .debug .storage "saved spells"
      [("path", .str p.text), ("count", .int book.length)]) := rfl

/-- When saving succeeds, and what it does to the disk. -/
theorem run_saveTo_eq_ok {p : Path} {book : Book} {env : Env} {s u : State}
    (h : (saveTo p book).run env s = (.ok (), u)) :
    (s.disk.makeFolders env.here p.anchor p.parent.names.reverse).1 = .ok () ∧
      ∃ bytes, Writes (prepared s.disk env.here p) env.here p book bytes u.disk := by
  rw [saveTo_eq] at h
  obtain ⟨⟨⟩, s₁, folders, h₁⟩ := run_bind_eq_ok.mp h
  obtain ⟨t, s₂, written, h₂⟩ := run_bind_eq_ok.mp h₁
  obtain ⟨source, s₃, beside, h₃⟩ := run_bind_eq_ok.mp h₂
  obtain ⟨⟨⟩, s₄, moved, noted⟩ := run_bind_eq_ok.mp h₃
  obtain ⟨made, rfl⟩ := Prod.mk.inj ((run_makeFolders p.parent).symm.trans folders)
  obtain ⟨texted, rfl⟩ := Prod.mk.inj ((run_ofExcept _).symm.trans written)
  obtain ⟨n, first, rfl, name, folder, rfl⟩ := run_makeBeside_eq_ok.mp beside
  obtain ⟨bytes, disk, encoded, replaced, rfl⟩ :=
    run_putInPlace_eq_ok.mp (run_orRemove_eq_ok.mp moved)
  obtain ⟨-, rfl⟩ := Prod.mk.inj ((run_note _ _ _ _ _ _).symm.trans noted)
  exact ⟨mapError_eq_ok.mp made, bytes, ⟨t, texted, encoded⟩, folder, n, first, name, replaced⟩

/-- Saving succeeds where a book can get into the file. -/
theorem run_saveTo_of_writes {p : Path} {book : Book} {env : Env} {s : State} {bytes : Bytes}
    {e : Disk} (made : (s.disk.makeFolders env.here p.anchor p.parent.names.reverse).1 = .ok ())
    (writes : Writes (prepared s.disk env.here p) env.here p book bytes e) :
    ∃ u, (saveTo p book).run env s = (.ok (), u) ∧ u.disk = e := by
  obtain ⟨⟨t, texted, encoded⟩, folder, n, first, name, replaced⟩ := writes
  have folders : (makeFolders p.parent).run env s
      = (.ok (), { s with disk := prepared s.disk env.here p }) := by
    rw [run_makeFolders]
    exact Prod.ext (mapError_eq_ok.mpr made) rfl
  have texted : (Act.ofExcept (text book)).run env { s with disk := prepared s.disk env.here p }
      = (.ok t, { s with disk := prepared s.disk env.here p }) := by
    rw [run_ofExcept, texted]
  have beside : (makeBeside p).run env { s with disk := prepared s.disk env.here p }
      = (.ok (besideRoute env.here p n), { s with
          disk := (prepared s.disk env.here p).put (besideRoute env.here p n) (.file []) }) :=
    run_makeBeside_eq_ok.mpr ⟨n, first, rfl, name, folder, rfl⟩
  have moved : (orRemove (besideRoute env.here p n)
      (putInPlace p (besideRoute env.here p n) t)).run env { s with
          disk := (prepared s.disk env.here p).put (besideRoute env.here p n) (.file []) }
      = (.ok (), { s with disk := e }) :=
    run_orRemove_eq_ok.mpr (run_putInPlace_eq_ok.mpr ⟨bytes, e, encoded, replaced, rfl⟩)
  have noted := run_note .debug .storage "saved spells"
    [("path", .str p.text), ("count", .int book.length)] env { s with disk := e }
  rw [saveTo_eq]
  exact ⟨_, run_bind_eq_ok.mpr ⟨(), _, folders, run_bind_eq_ok.mpr ⟨t, _, texted,
    run_bind_eq_ok.mpr ⟨_, _, beside, run_bind_eq_ok.mpr ⟨(), _, moved, noted⟩⟩⟩⟩, rfl⟩

/-! ## What saving leaves -/

variable {d e : Disk} {here : Route} {p : Path} {book : Book} {bytes : Bytes} {n : Nat}

/-- Whether a disk is another one with a file at a route where no folder was. -/
structure Stored (d : Disk) (target : Route) (bytes : Bytes) (e : Disk) : Prop where
  free : d.find? target ≠ some .folder
  eq : ∀ q, e.find? q = if q = target then some (.file bytes) else d.find? q

namespace Stored

variable {target : Route}

theorem folder_iff (stored : Stored d target bytes e) (q : Route) :
    e.find? q = some .folder ↔ d.find? q = some .folder := by
  rw [stored.eq]
  split
  · next same => simpa [same] using stored.free
  · rfl

theorem tree (stored : Stored d target bytes e) (tree : d.IsTree)
    (parent : d.find? target.dropLast = some .folder) : e.IsTree := by
  intro q entry nonempty found
  rw [stored.folder_iff]
  rw [stored.eq] at found
  split at found
  · next same => rw [same, parent]
  · exact tree q entry nonempty found

theorem locate_iff (stored : Stored d target bytes e) (p : Path) (r : Route) :
    e.locate here p = .ok r ↔ d.locate here p = .ok r :=
  ⟨Disk.locate_mono fun q => (stored.folder_iff q).mp,
    Disk.locate_mono fun q => (stored.folder_iff q).mpr⟩

theorem hasFolder (stored : Stored d target bytes e) (p : Path) :
    e.hasFolder here p = d.hasFolder here p := by
  rw [Bool.eq_iff_iff]
  exact ⟨Disk.hasFolder_mono fun q => (stored.folder_iff q).mp,
    Disk.hasFolder_mono fun q => (stored.folder_iff q).mpr⟩

theorem fileAt (stored : Stored d target bytes e) (located : d.locate here p = .ok target) :
    e.fileAt here p = some bytes :=
  Disk.fileAt_eq_some.mpr
    ⟨target, (stored.locate_iff p target).mpr located, by rw [stored.eq, if_pos rfl]⟩

end Stored

theorem stored_withBeside (free : d.find? (besideRoute here p n) = none) :
    Stored d (besideRoute here p n) bytes (withBeside d here p n bytes) := by
  refine ⟨by simp [free], fun q => ?_⟩
  rw [withBeside, Disk.find?_put _ _ _ _ (besideRoute_ne_nil here p n),
    Disk.find?_put _ _ _ _ (besideRoute_ne_nil here p n)]
  split <;> rfl

theorem dropLast_besideRoute (here : Route) (p : Path) (n : Nat) :
    (besideRoute here p n).dropLast = Disk.resolve here p.parent := List.dropLast_concat

/-- A path that ends in a name leads to that name. -/
theorem route_endsInName {target : Route} (ends : Disk.endsInName p = true)
    (located : d.locate here p = .ok target) :
    target = target.dropLast ++ [Name.ofText p.name] := by
  obtain ⟨accepted, -, walked⟩ := Disk.locate_eq_ok.mp located
  obtain ⟨names, last⟩ : ∃ names, p.names = names ++ [p.name] := by
    rcases List.eq_nil_or_concat' p.names with empty | ⟨names, name, same⟩
    · simp [Disk.endsInName, Path.name, empty] at ends
    · exact ⟨names, by simp [Path.name, same]⟩
  have named : Name.isNameable p.name = true :=
    List.all_eq_true.mp (Disk.refusal?_eq_none_iff.mp accepted).1 _ (by rw [last]; simp)
  have plain : Name.ofText p.name ≠ Name.up := by
    rw [Ne, Name.ofText_eq_up_iff named]
    intro up
    simp [Disk.endsInName, up] at ends
  rw [Disk.walk_eq_follow walked, Disk.names, last, List.map_append, List.map_singleton,
    List.foldl_append, List.foldl_cons, List.foldl_nil, Disk.follow, if_neg plain,
    List.dropLast_concat]

/-- The file beside a path is another file. -/
theorem besideRoute_ne {target : Route} (ends : Disk.endsInName p = true)
    (located : d.locate here p = .ok target) (n : Nat) : besideRoute here p n ≠ target := by
  intro same
  -- The name of the file beside holds the name of the file, and is longer.
  have last := congrArg List.getLast? (same.trans (route_endsInName ends located))
  rw [besideRoute, Disk.numberedRoute, List.getLast?_concat, List.getLast?_concat] at last
  have length := Disk.length_numberedName ("." ++ p.name ++ ".") ".tmp" n
  rw [Option.some.inj last, Name.ofText_append, Name.ofText_append] at length
  simp only [List.length_append] at length
  omega

theorem replace_eq_ok {source target : Route} (located : d.locate here p = .ok target)
    (file : d.find? source = some (.file bytes)) :
    (∃ e, d.replace here source p = .ok e) ↔
      Disk.endsInName p = true ∧ d.find? target ≠ some .folder := by
  simp only [Disk.replace, located, file]
  cases Disk.endsInName p with
  | false => simp
  | true =>
    cases d.find? target with
    | none => simp
    | some entry => cases entry <;> simp

/-- What a book that got into a file has changed: that file, and nothing else. -/
theorem Writes.stored (writes : Writes d here p book bytes e) (tree : d.IsTree) :
    ∃ target, Disk.endsInName p = true ∧ d.locate here p = .ok target ∧
      Stored d target bytes e := by
  obtain ⟨n, ⟨free, -⟩, -, replaced⟩ := writes.replaced
  have beside : Stored d (besideRoute here p n) bytes (withBeside d here p n bytes) :=
    stored_withBeside free
  -- The path leads to the same route with the file beside it, because folders are as before.
  obtain ⟨target, located⟩ :
      ∃ target, (withBeside d here p n bytes).locate here p = .ok target := by
    cases located : (withBeside d here p n bytes).locate here p with
    | ok target => exact ⟨target, rfl⟩
    | error error => simp [Disk.replace, located] at replaced
  have file : (withBeside d here p n bytes).find? (besideRoute here p n) = some (.file bytes) := by
    rw [beside.eq, if_pos rfl]
  obtain ⟨ends, noFolder⟩ := (replace_eq_ok located file).mp ⟨e, replaced⟩
  have other := besideRoute_ne ends located n
  have parent := (dropLast_besideRoute here p n).symm ▸ writes.folder
  have changed := Disk.find?_replace (beside.tree tree parent) file located other replaced
  refine ⟨target, ends, (beside.locate_iff p target).mp located,
    (beside.folder_iff target).not.mp noFolder, fun q => ?_⟩
  rw [changed, beside.eq]
  split
  · rfl
  · split
    · next same => rw [same, free]
    · rfl

theorem Writes.fileAt (writes : Writes d here p book bytes e) (tree : d.IsTree) :
    e.fileAt here p = some bytes := by
  obtain ⟨target, -, located, stored⟩ := writes.stored tree
  exact stored.fileAt located

theorem Writes.tree (writes : Writes d here p book bytes e) (tree : d.IsTree) : e.IsTree := by
  obtain ⟨target, ends, located, stored⟩ := writes.stored tree
  have nonempty : p.names ≠ [] := by
    intro empty
    simp [Disk.endsInName, Path.name, empty] at ends
  have walked := (Disk.locate_eq_ok.mp located).2.2
  rcases Disk.walk_end tree (Disk.names_ne_nil nonempty) walked with folder | ⟨-, parent⟩
  · exact absurd folder stored.free
  · exact stored.tree tree parent

/-- From the text of a book the book is loaded, with its spells in normal form. -/
theorem loaded_of_text (lawful : IsLawful book) {t : Text} (texted : Book.text book = .ok t)
    (encoded : Utf8.encode t = some bytes) (room : Json.Room) :
    loaded room (.ok bytes) = .ok ⟨normal book, []⟩ := by
  simp only [loaded, found_text lawful texted encoded room, ofItems_wires lawful]

/-- What got into a file is what loading gives. -/
theorem Writes.loaded (writes : Writes d here p book bytes e) (tree : d.IsTree)
    (lawful : IsLawful book) : Book.loaded room (e.contentAt here p) = .ok ⟨normal book, []⟩ := by
  obtain ⟨t, texted, encoded⟩ := writes.text
  rw [Disk.contentAt_of_fileAt (writes.fileAt tree)]
  exact loaded_of_text lawful texted encoded room

/-- Whether a file can be written beside a path and put in the place of what lies there. -/
structure IsOpen (d : Disk) (here : Route) (p : Path) : Prop where
  folder : d.find? (Disk.resolve here p.parent) = some .folder
  ends : Disk.endsInName p = true
  target : ∃ target, d.locate here p = .ok target ∧ d.find? target ≠ some .folder
  beside : ∃ n, IsFirstFree d here p n ∧
    IsFileName (Disk.numberedName ("." ++ p.name ++ ".") ".tmp" n)

theorem IsOpen.congr (isOpen : IsOpen d here p) (same : Disk.Same d e) : IsOpen e here p := by
  obtain ⟨target, located, free⟩ := isOpen.target
  obtain ⟨n, ⟨new, taken⟩, name⟩ := isOpen.beside
  refine ⟨same.folder _ isOpen.folder, isOpen.ends, ⟨target, Disk.locate_mono same.folder located,
    (same target).symm ▸ free⟩, n, ⟨(same _).trans new, fun m less => ?_⟩, name⟩
  rw [same]
  exact taken m less

/-- Every book with a text that can be encoded gets into the file. -/
theorem IsOpen.writes (isOpen : IsOpen d here p) {t : Text} (texted : Book.text book = .ok t)
    (encoded : Utf8.encode t = some bytes) : ∃ e, Writes d here p book bytes e := by
  obtain ⟨target, located, free⟩ := isOpen.target
  obtain ⟨n, first, name⟩ := isOpen.beside
  have beside : Stored d (besideRoute here p n) bytes (withBeside d here p n bytes) :=
    stored_withBeside first.1
  have file : (withBeside d here p n bytes).find? (besideRoute here p n) = some (.file bytes) := by
    rw [beside.eq, if_pos rfl]
  have noFolder : (withBeside d here p n bytes).find? target ≠ some .folder := by
    rwa [ne_eq, beside.folder_iff]
  obtain ⟨e, replaced⟩ :=
    (replace_eq_ok ((beside.locate_iff p target).mpr located) file).mpr ⟨isOpen.ends, noFolder⟩
  exact ⟨e, ⟨t, texted, encoded⟩, isOpen.folder, n, first, name, replaced⟩

/-- What got into a file leaves the way to it open. -/
theorem Writes.isOpen (writes : Writes d here p book bytes e) (tree : d.IsTree) :
    IsOpen e here p := by
  obtain ⟨target, ends, located, stored⟩ := writes.stored tree
  obtain ⟨n, ⟨free, taken⟩, name, -⟩ := writes.replaced
  -- The file beside has gone, so the same number is the first free one again.
  have unchanged : ∀ m, e.find? (besideRoute here p m) = d.find? (besideRoute here p m) := by
    intro m
    rw [stored.eq, if_neg (besideRoute_ne ends located m)]
  refine ⟨(stored.folder_iff _).mpr writes.folder, ends, ⟨target,
    (stored.locate_iff p target).mpr located, (stored.folder_iff target).not.mpr stored.free⟩, n,
    ⟨(unchanged n).trans free, fun m less => ?_⟩, name⟩
  rw [unchanged]
  exact taken m less

/-- A book whose text is the same gets into the file again. -/
theorem Writes.again (writes : Writes d here p book bytes e) (tree : d.IsTree) {other : Book}
    (same : Book.text other = Book.text book) : ∃ f, Writes e here p other bytes f := by
  obtain ⟨t, texted, encoded⟩ := writes.text
  exact (writes.isOpen tree).writes (same.trans texted) encoded

/-- Saving that fails leaves every file as it was. -/
theorem same_of_run_saveTo_eq_error {env : Env} {s u : State} {failure : Failure}
    (tree : s.disk.IsTree) (h : (saveTo p book).run env s = (.error failure, u)) :
    Disk.Same (prepared s.disk env.here p) u.disk := by
  rw [saveTo_eq] at h
  rcases run_bind_eq_error.mp h with folders | ⟨⟨⟩, s₁, folders, h₁⟩
  · obtain ⟨-, rfl⟩ := Prod.mk.inj ((run_makeFolders p.parent).symm.trans folders)
    exact fun _ => rfl
  obtain ⟨-, rfl⟩ := Prod.mk.inj ((run_makeFolders p.parent).symm.trans folders)
  rcases run_bind_eq_error.mp h₁ with written | ⟨t, s₂, written, h₂⟩
  · obtain ⟨-, rfl⟩ := Prod.mk.inj ((run_ofExcept _).symm.trans written)
    exact fun _ => rfl
  obtain ⟨-, rfl⟩ := Prod.mk.inj ((run_ofExcept _).symm.trans written)
  rcases run_bind_eq_error.mp h₂ with beside | ⟨source, s₃, beside, h₃⟩
  · rw [run_makeBeside_eq_error beside]
    exact fun _ => rfl
  obtain ⟨n, ⟨new, -⟩, rfl, -, folder, rfl⟩ := run_makeBeside_eq_ok.mp beside
  -- From here on there is a file beside, which is taken away again.
  have free : (prepared s.disk env.here p).find? (besideRoute env.here p n) = none := new
  rcases run_bind_eq_error.mp h₃ with moved | ⟨⟨⟩, s₄, -, noted⟩
  · obtain ⟨v, failed, rfl⟩ := run_orRemove_eq_error.mp moved
    have taken : ∃ content, Stored (prepared s.disk env.here p) (besideRoute env.here p n) content
        v.disk := by
      rcases run_putInPlace_eq_error failed with rfl | ⟨content, rfl⟩
      · refine ⟨[], by simp [free], fun q => ?_⟩
        exact Disk.find?_put _ _ _ _ (besideRoute_ne_nil env.here p n)
      · exact ⟨content, stored_withBeside free⟩
    obtain ⟨content, stored⟩ := taken
    have tree' := (Disk.adds_makeFolders env.here p.anchor p.parent.names.reverse).1.tree tree
    have parent := (dropLast_besideRoute env.here p n).symm ▸ folder
    intro q
    rw [Disk.find?_removeTree_file (stored.tree tree' parent) (by simp [stored.eq]), stored.eq]
    split
    · next same => rw [same, free]
    · rfl
  · exact absurd ((run_note _ _ _ _ _ _).symm.trans noted) (by simp)

end Book

end Grimoire
