import Grimoire.Proofs.Bundle.Encodable
import Grimoire.Proofs.Command.Generating

/-!
# What one run changes

A job is a spell that is to be generated into a folder. Whatever becomes of it, only what the job owns
changes: the folder of the bundle, the archive and its digest; besides, folders may be new on the way
(`Command.Job.keeps_of_leaves`). If the way of the folder does not lead through what the job owns, then
what is left is known at every route (`Command.Job.does_of_leaves`).
-/

namespace Grimoire.Command

open Disk Grimoire.Bundle

variable {here : Route} {folder : Path} {name : Text} {bundle : Bundle}
  {alsoArchive force done : Bool} {rules : Markup.Rules} {new : Spell} {c d e : Disk}

/-! ## Trees -/

/-- What lies in a folder is not on the way to the folder. -/
theorem not_prefix_route {r q : Route} {name : Name} (above : q <+: r) : ¬r ++ [name] <+: q :=
  fun below => by simpa using (below.trans above).length_le

@[simp]
theorem dropLast_fileOf (r : Route) (name : Text) : (fileOf r name).dropLast = r :=
  List.dropLast_concat

theorem fileOf_inj {r : Route} {name name' : Text} :
    fileOf r name = fileOf r name' ↔ Name.ofText name = Name.ofText name' := by
  rw [fileOf, fileOf, List.append_cancel_left_eq, List.singleton_inj]

theorem fileOf_append_ne (r : Route) (name : Text) {ending ending' : Text}
    (differ : Name.ofText ending ≠ Name.ofText ending') :
    fileOf r (name ++ ending) ≠ fileOf r (name ++ ending') := by
  rw [ne_eq, fileOf_inj, Name.ofText_append, Name.ofText_append, List.append_cancel_left_eq]
  exact differ

/-- A disk on which a folder has been filled is a tree. -/
theorem IsPlaced.tree (placed : IsPlaced new here folder d e) (tree : d.IsTree)
    (route : (d.grounded here (resolve here folder)).find? (resolve here folder) = some .folder) :
    e.IsTree := by
  have tree' : (d.grounded here (resolve here folder)).IsTree :=
    (adds_makeFolders here .root _).1.tree tree
  intro q entry nonempty found
  by_cases below : fileOf (resolve here folder) new.name <+: q
  · obtain ⟨t, rfl⟩ := below
    by_cases itself : t = []
    · rw [itself, List.append_nil, dropLast_fileOf, placed.others _ (not_prefix_route
        List.prefix_rfl), route]
    · obtain ⟨key, -, rfl⟩ := placed.filled.only t entry itself found
      rw [List.dropLast_concat, placed.filled.folder]
  · have above : ¬fileOf (resolve here folder) new.name <+: q.dropLast := fun inside =>
      below (inside.trans (List.dropLast_prefix q))
    rw [placed.others _ below] at found
    rw [placed.others _ above]
    exact tree' q entry nonempty found

theorem Archives.tree (archives : Archives here folder name bundle alsoArchive d done e)
    (tree : d.IsTree) (route : d.find? (resolve here folder) = some .folder) : e.IsTree := by
  have tree' : (opened d here folder).IsTree := (adds_opened d here folder).tree tree
  have route' : (opened d here folder).find? (resolve here folder) = some .folder :=
    (adds_opened d here folder).kept _ _ route
  have archive (can : CanArchive d here folder name) : ((opened d here folder).put
      (resolve here (archivePath folder name)) (.file (archiveOf bundle).bytes)).IsTree := by
    refine tree'.put can.archive.root (fun folder => absurd folder can.archive.noFolder) ?_
    rwa [resolve_archivePath, dropLast_fileOf]
  cases archives with
  | unasked unasked same => exact tree.congr same
  | unopened asked cannot same => exact tree'.congr same
  | undigested asked can cannot left =>
    exact (archive can).congr fun q => by rw [left, find?_put _ _ _ _ can.archive.root]
  | archived asked can canDigest left =>
    have placeable : IsPlaceable ((opened d here folder).put (resolve here (archivePath folder name))
        (.file (archiveOf bundle).bytes)) here (digestPath folder name) :=
      (isPlaceable_put can.archive.noFolder).mpr canDigest
    have digest : (((opened d here folder).put (resolve here (archivePath folder name))
        (.file (archiveOf bundle).bytes)).put (resolve here (digestPath folder name))
          (.file (digestBytes (archiveOf bundle)))).IsTree := by
      refine (archive can).put canDigest.root (fun folder => absurd folder placeable.noFolder) ?_
      rw [resolve_digestPath, dropLast_fileOf, find?_put _ _ _ _ can.archive.root,
        resolve_archivePath, if_neg (by simp [fileOf]), route']
    refine digest.congr fun q => ?_
    rw [left, find?_put _ _ _ _ canDigest.root, find?_put _ _ _ _ can.archive.root]

theorem CanBegin.isPlain (can : CanBegin rules new here folder) (plain : IsPlain here)
    (named : ∀ name ∈ folder.names, name ≠ []) : IsPlain (resolve here folder) :=
  isPlain_resolve plain named can.accepted

theorem Leaves.tree (leaves : Leaves rules new here folder alsoArchive force d done e)
    (tree : d.IsTree) (plain : IsPlain here) (named : ∀ name ∈ folder.names, name ≠ []) : e.IsTree := by
  cases leaves with
  | refused cannot => exact tree
  | unplaced can cannot same => exact ((adds_makeFolders here .root _).1.tree tree).congr same
  | placed can canPlace placed archives =>
    have isOpen := isOpen_grounded (can.isPlain plain named).down canPlace.ground
    refine archives.tree (placed.tree tree isOpen.folder) ?_
    rw [placed.others _ (not_prefix_route List.prefix_rfl), isOpen.folder]

/-! ## Jobs -/

open Classical in
/-- What is left where an archive is to be written. -/
theorem archives_asked (asked : alsoArchive = true)
    (archives : Archives here folder name bundle alsoArchive d done e) :
    (done = true ↔ CanArchive d here folder name ∧
      IsPlaceable (opened d here folder) here (digestPath folder name)) ∧
    (e.find? (resolve here (archivePath folder name)) = if CanArchive d here folder name then
        some (.file (archiveOf bundle).bytes)
      else (opened d here folder).find? (resolve here (archivePath folder name))) ∧
    (e.find? (resolve here (digestPath folder name)) = if CanArchive d here folder name ∧
        IsPlaceable (opened d here folder) here (digestPath folder name) then
        some (.file (digestBytes (archiveOf bundle)))
      else (opened d here folder).find? (resolve here (digestPath folder name))) ∧
    ∀ q, q ≠ resolve here (archivePath folder name) → q ≠ resolve here (digestPath folder name) →
      e.find? q = (opened d here folder).find? q := by
  have other : resolve here (digestPath folder name) ≠ resolve here (archivePath folder name) := by
    rw [resolve_archivePath, resolve_digestPath]
    exact fileOf_append_ne _ _ (by decide)
  cases archives with
  | unasked unasked same => exact absurd asked (by simp [unasked])
  | unopened _ cannot same =>
    refine ⟨by simp [cannot], ?_, ?_, fun q _ _ => same q⟩
    · rw [same, if_neg cannot]
    · rw [same, if_neg fun can => cannot can.1]
  | undigested _ can cannot left =>
    refine ⟨by simp [cannot], ?_, ?_, fun q away _ => ?_⟩
    · rw [left, if_pos rfl, if_pos can]
    · rw [left, if_neg other, if_neg fun can => cannot can.2]
    · rw [left, if_neg away]
  | archived _ can canDigest left =>
    refine ⟨by simp [can, canDigest], ?_, ?_, fun q away away' => ?_⟩
    · rw [left, if_neg other.symm, if_pos rfl, if_pos can]
    · rw [left, if_pos rfl, if_pos ⟨can, canDigest⟩]
    · rw [left, if_neg away', if_neg away]

/-- A spell that is to be generated into a folder, on some console. -/
structure Job (here : Route) (folder : Path) where
  new : Spell
  alsoArchive : Bool
  force : Bool
  marks : Markup.Rules

namespace Job

variable {j : Job here folder} {q : Route}

/-- The route of the bundle. -/
def place (j : Job here folder) : Route := fileOf (resolve here folder) j.new.name

/-- The route of the archive. -/
def archive (j : Job here folder) : Route := fileOf (resolve here folder) (j.new.name ++ ".zip")

/-- The route of the digest of the archive. -/
def digest (j : Job here folder) : Route :=
  fileOf (resolve here folder) (j.new.name ++ ".zip.sha256")

theorem resolve_archive (j : Job here folder) :
    resolve here (archivePath folder j.new.name) = j.archive :=
  resolve_archivePath here folder j.new.name

theorem resolve_digest (j : Job here folder) :
    resolve here (digestPath folder j.new.name) = j.digest :=
  resolve_digestPath here folder j.new.name

/-- Whether a job writes at a route: that of the bundle, or below it, or that of the archive or of its
digest. -/
def Owns (j : Job here folder) (q : Route) : Prop :=
  j.place <+: q ∨ j.alsoArchive = true ∧ (q = j.archive ∨ q = j.digest)

instance (j : Job here folder) (q : Route) : Decidable (j.Owns q) :=
  inferInstanceAs (Decidable (j.place <+: q ∨ j.alsoArchive = true ∧ (q = j.archive ∨ q = j.digest)))

/-- What a job owns lies in the folder. -/
theorem Owns.inside (own : j.Owns q) : ∃ name, resolve here folder ++ [name] <+: q := by
  rcases own with below | ⟨-, rfl | rfl⟩
  · exact ⟨_, below⟩
  · exact ⟨_, List.prefix_rfl⟩
  · exact ⟨_, List.prefix_rfl⟩

theorem Owns.not_above (own : j.Owns q) : ¬q <+: resolve here folder :=
  have ⟨_, below⟩ := own.inside
  fun above => not_prefix_route above below

/-- Whether a folder at a route may be made on the way. -/
def MayMake (j : Job here folder) (q : Route) : Prop :=
  q <+: resolve here folder ∨ j.alsoArchive = true ∧ Passes here folder q

/-- Whether nothing has changed but what a job owns, and folders that are new on the way. -/
def Keeps (j : Job here folder) (d e : Disk) : Prop := ∀ q, ¬j.Owns q → MadeAt j.MayMake d e q

/-- What may be left of a disk when a job has been done or not. -/
def Leaves (j : Job here folder) (d : Disk) (done : Bool) (e : Disk) : Prop :=
  Command.Leaves j.marks j.new here folder j.alsoArchive j.force d done e

/-- Whatever becomes of a job, it changes only what it owns. -/
theorem keeps_of_leaves (plain : IsPlain here) (named : ∀ name ∈ folder.names, name ≠ [])
    (leaves : j.Leaves d done e) : j.Keeps d e := by
  intro q other
  rw [Owns, not_or, not_and, not_or] at other
  have ground (can : CanBegin j.marks j.new here folder) :
      MadeAt j.MayMake d (d.grounded here (resolve here folder)) q :=
    (keptAt_foldersOf here (can.isPlain plain named).down q).imp_right fun ⟨free, new, above⟩ =>
      ⟨free, new, .inl above⟩
  cases leaves with
  | refused cannot => exact .inl rfl
  | unplaced can cannot same =>
    rw [MadeAt, same]
    exact ground can
  | @placed c _ _ can canPlace placed archives =>
    have before : MadeAt j.MayMake d c q := by
      rw [MadeAt, placed.others q other.1]
      exact ground can
    have between (asked : j.alsoArchive = true) : MadeAt j.MayMake d (opened c here folder) q :=
      before.trans ((madeAt_opened c here folder q).mono fun passes => .inr ⟨asked, passes⟩)
    cases archives with
    | unasked unasked same =>
      rw [MadeAt, same]
      exact before
    | unopened asked cannot same =>
      rw [MadeAt, same]
      exact between asked
    | undigested asked can cannot left =>
      rw [MadeAt, left, resolve_archive, if_neg (other.2 asked).1]
      exact between asked
    | archived asked can canDigest left =>
      rw [MadeAt, left, resolve_digest, resolve_archive, if_neg (other.2 asked).2,
        if_neg (other.2 asked).1]
      exact between asked

/-- What lies in the place of the bundle stays there, unless it is replaced by force. -/
theorem not_done_of_taken (plain : IsPlain here) (named : ∀ name ∈ folder.names, name ≠ [])
    (unforced : j.force = false) (taken : d.find? j.place ≠ none) (leaves : j.Leaves d done e) :
    done = false := by
  cases leaves with
  | refused cannot => rfl
  | unplaced can cannot same => rfl
  | placed can canPlace placed archives =>
    have free := canPlace.allowed.resolve_left (by simp [unforced])
    rw [find?_grounded (can.isPlain plain named).down fun above => not_prefix_route above
      List.prefix_rfl] at free
    exact absurd free taken

/-! ## What is decided -/

/-- Whether the bundle gets to its place, on a disk with the folder. -/
structure Places (j : Job here folder) (d : Disk) : Prop where
  allowed : j.force = true ∨ d.find? j.place = none
  stage : CanStage d j.place (ofSpell j.new)

/-- Where nothing lies, the bundle of a spell gets to its place if all names on the way are short
enough. -/
theorem places_of_free (fresh : Name) (valid : j.new.IsValid)
    (loose : ∀ t ∈ j.new.looseTexts, t.isEncodable = true) (free : d.find? j.place = none)
    (beside : besideOf d j.place = resolve here folder ++ [fresh]) (own : d.Reaches j.place)
    (staged : d.Reaches (resolve here folder ++ [fresh]))
    (files : ∀ name ∈ (ofSpell j.new).keys, IsEntryName (resolve here folder ++ [fresh]) name) :
    j.Places d := by
  refine ⟨.inr free, beside ▸ staged, fun entry member => ⟨?_, ?_⟩, fun content => ?_, own⟩
  · exact beside ▸ files _ (List.mem_map_of_mem member)
  · exact isEncodable_ofSpell valid loose entry member
  · simp [free]

/-- Whether the folders for the archive are made. -/
def Opens (j : Job here folder) (d : Disk) : Prop := j.Places d ∧ j.alsoArchive = true

/-- Whether the archive gets to its place. -/
def Archives (j : Job here folder) (d : Disk) : Prop :=
  j.Opens d ∧ CanArchive d here folder j.new.name

/-- Whether the digest of the archive gets to its place. -/
def Digests (j : Job here folder) (d : Disk) : Prop :=
  j.Archives d ∧ IsPlaceable (opened d here folder) here (digestPath folder j.new.name)

/-- Whether a job is done, on a disk with the folder. -/
def Finishes (j : Job here folder) (d : Disk) : Prop :=
  j.Places d ∧ (j.alsoArchive = true → j.Digests d)

open Classical in
/-- Whether a job has been done or not on a disk with the folder, and has left another disk. -/
structure Does (j : Job here folder) (d : Disk) (done : Bool) (e : Disk) : Prop where
  done : done = true ↔ j.Finishes d
  filled : j.Places d → Fills (ofSpell j.new) j.place e
  unfilled : ¬j.Places d → ∀ q, j.place <+: q → e.find? q = d.find? q
  archive : j.alsoArchive = true → e.find? j.archive
    = if j.Archives d then some (.file (archiveOf (ofSpell j.new)).bytes) else d.find? j.archive
  digest : j.alsoArchive = true → e.find? j.digest
    = if j.Digests d then some (.file (digestBytes (archiveOf (ofSpell j.new))))
      else d.find? j.digest
  others : ∀ q, ¬j.Owns q →
    e.find? q = (if j.Opens d then opened d here folder else d).find? q

/-- Whether the way of the folder does not lead through what a job owns. -/
def IsClear (j : Job here folder) : Prop := ∀ q, Passes here folder q → ¬j.Owns q

theorem isClear_of_down (down : ∀ name ∈ names folder, name ≠ Name.up) : j.IsClear :=
  fun _ passes own => own.not_above (passes.above down)

theorem canPlace_iff :
    CanPlace d here (resolve here folder) (Name.ofText j.new.name) (ofSpell j.new) j.force ↔
    (d.makeFolders here .root (pathOf (resolve here folder)).names.reverse).1 = .ok () ∧
      j.Places (d.grounded here (resolve here folder)) :=
  ⟨fun ⟨ground, allowed, stage⟩ => ⟨ground, allowed, stage⟩,
    fun ⟨ground, allowed, stage⟩ => ⟨ground, allowed, stage⟩⟩

theorem not_prefix_archive (j : Job here folder) : ¬j.place <+: j.archive := fun below => by
  have same := below.eq_of_length (by simp [place, archive, fileOf])
  rw [place, archive, fileOf_inj, Name.ofText_append, List.self_eq_append_right] at same
  exact absurd same (by decide)

theorem not_prefix_digest (j : Job here folder) : ¬j.place <+: j.digest := fun below => by
  have same := below.eq_of_length (by simp [place, digest, fileOf])
  rw [place, digest, fileOf_inj, Name.ofText_append, List.self_eq_append_right] at same
  exact absurd same (by decide)

/-- What is left if the bundle does not get to its place. -/
theorem does_of_not_places (cannot : ¬j.Places d) (same : d.Same e) : j.Does d false e where
  done := by simp [Finishes, cannot]
  filled can := absurd can cannot
  unfilled _ q _ := same q
  archive _ := by rw [if_neg fun can => cannot can.1.1, same]
  digest _ := by rw [if_neg fun can => cannot can.1.1.1, same]
  others q _ := by rw [if_neg fun can => cannot can.1, same]

/-- The bundle in its place is in the way of neither archive nor digest. -/
theorem agree_opened (clear : j.IsClear) (agree : Agree (fun q => ¬j.place <+: q) d c) :
    Agree (fun q => ¬j.place <+: q) (opened d here folder) (opened c here folder) ∧
      (CanArchive c here folder j.new.name ↔ CanArchive d here folder j.new.name) ∧
      (IsPlaceable (opened c here folder) here (digestPath folder j.new.name) ↔
        IsPlaceable (opened d here folder) here (digestPath folder j.new.name)) := by
  have within (r : Route) (passes : Passes here folder r) : ¬j.place <+: r := fun below =>
    clear r passes (.inl below)
  refine ⟨(opened_congr agree within).2, canArchive_congr (agree.mono fun r passes => ?_),
    canDigest_congr (agree.mono fun r passes => ?_)⟩
  · rcases (passes_child (append_ne_up _ (by decide))).mp passes with way | rfl
    · exact within r way
    · exact j.not_prefix_archive
  · rcases (passes_child (append_ne_up _ (by decide))).mp passes with way | rfl
    · exact within r way
    · exact j.not_prefix_digest

/-- What is left if the bundle gets to its place. -/
theorem does_of_placed (clear : j.alsoArchive = true → j.IsClear) (can : j.Places d)
    (filled : Fills (ofSpell j.new) j.place c) (agree : Agree (fun q => ¬j.place <+: q) d c)
    (archives : Command.Archives here folder j.new.name (ofSpell j.new) j.alsoArchive c done e) :
    j.Does d done e := by
  classical
  have within (same : ∀ q, j.place <+: q → e.find? q = c.find? q) :
      Fills (ofSpell j.new) j.place e := filled.congr fun q => same _ (List.prefix_append _ q)
  by_cases asked : j.alsoArchive = true
  · obtain ⟨ends, archive, digest, others⟩ := archives_asked asked archives
    rw [j.resolve_archive, j.resolve_digest] at others
    rw [j.resolve_archive] at archive
    rw [j.resolve_digest] at digest
    obtain ⟨agree', canArchive, canDigest⟩ := agree_opened (clear asked) agree
    rw [canArchive] at archive
    rw [canArchive, canDigest] at digest ends
    -- Nothing is made where the job owns what lies there.
    have kept {q : Route} (own : j.Owns q) : (opened c here folder).find? q = c.find? q :=
      find?_opened fun passes => clear asked q passes own
    have archives : j.Archives d ↔ CanArchive d here folder j.new.name := by
      simp [Archives, Opens, can, asked]
    exact {
      done := by simp [Finishes, Digests, archives, can, asked, ends]
      filled _ := within fun q below => by
        rw [others q (fun same => j.not_prefix_archive (same ▸ below))
          (fun same => j.not_prefix_digest (same ▸ below)), kept (.inl below)]
      unfilled cannot := absurd can cannot
      archive _ := by
        rw [archive, kept (.inr ⟨asked, .inl rfl⟩), agree _ j.not_prefix_archive]
        exact if_congr archives.symm rfl rfl
      digest _ := by
        rw [digest, kept (.inr ⟨asked, .inr rfl⟩), agree _ j.not_prefix_digest]
        exact if_congr (and_congr_left' archives).symm rfl rfl
      others q other := by
        rw [Owns, not_or, not_and, not_or] at other
        rw [if_pos ⟨can, asked⟩, others q (other.2 asked).1 (other.2 asked).2, agree' q other.1] }
  · have same : c.Same e := by
      cases archives with
      | unasked unasked same => exact same
      | unopened asked' => exact absurd asked' asked
      | undigested asked' => exact absurd asked' asked
      | archived asked' => exact absurd asked' asked
    exact {
      done := by
        cases archives <;> simp_all [Finishes]
      filled _ := within fun q _ => same q
      unfilled cannot := absurd can cannot
      archive asked' := absurd asked' asked
      digest asked' := absurd asked' asked
      others q other := by
        rw [if_neg fun opens => asked opens.2, same]
        exact agree q fun below => other (.inl below) }

/-- What a job leaves of a disk on which it can begin and the folder can be made. -/
theorem does_of_leaves (clear : j.alsoArchive = true → j.IsClear)
    (begins : CanBegin j.marks j.new here folder)
    (ground : (d.makeFolders here .root (pathOf (resolve here folder)).names.reverse).1 = .ok ())
    (leaves : j.Leaves d done e) : j.Does (d.grounded here (resolve here folder)) done e := by
  cases leaves with
  | refused cannot => exact absurd begins cannot
  | unplaced can cannot same =>
    exact does_of_not_places (fun places => cannot (canPlace_iff.mpr ⟨ground, places⟩)) same
  | placed can canPlace placed archives =>
    exact does_of_placed clear (canPlace_iff.mp canPlace).2 placed.filled placed.others archives

end Job

end Grimoire.Command
