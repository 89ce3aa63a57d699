import Grimoire.Bundle.Archive
import Grimoire.Proofs.Bundle.Filling
import Grimoire.Proofs.Digest.Identity
import Grimoire.Proofs.Disk.Passing
import Mathlib.Data.List.TakeWhile

/-!
# Writing an archive

A file can be written at a path exactly if the path leads somewhere and no folder lies there
(`Bundle.run_putFile`). An archive is written in three steps, each of which may be the last one: the
folders are made, then the archive is written, then its digest beside it (`Bundle.run_writeArchive`).
-/

namespace Grimoire.Bundle

open Act Disk

variable {env : Env} {s : State} {d e : Disk} {here r : Route} {p folder : Path}

/-! ## Files at paths -/

/-- Whether a file can be written at a path. -/
structure IsPlaceable (d : Disk) (here : Route) (p : Path) : Prop where
  located : d.locate here p = .ok (resolve here p)
  noFolder : d.find? (resolve here p) ≠ some .folder

theorem IsPlaceable.root (placeable : IsPlaceable d here p) : resolve here p ≠ [] := by
  intro root
  have noFolder := placeable.noFolder
  rw [root] at noFolder
  exact noFolder rfl

theorem isPlaceable_congr (agree : Agree (Passes here p) d e) :
    IsPlaceable e here p ↔ IsPlaceable d here p := by
  have found := agree _ (passes_resolve here p)
  constructor
  · exact fun h => ⟨(locate_congr agree).symm.trans h.located, found ▸ h.noFolder⟩
  · exact fun h => ⟨(locate_congr agree).trans h.located, found.symm ▸ h.noFolder⟩

/-- A file where no folder lies is in nobody's way. -/
theorem isPlaceable_put {bytes : Bytes} (noFolder : d.find? r ≠ some .folder) :
    IsPlaceable (d.put r (.file bytes)) here p ↔ IsPlaceable d here p := by
  have root : r ≠ [] := by
    rintro rfl
    exact noFolder rfl
  have folders (q : Route) :
      (d.put r (.file bytes)).find? q = some .folder ↔ d.find? q = some .folder := by
    rw [find?_put _ _ _ _ root]
    split
    · next same =>
      subst same
      simp [noFolder]
    · exact Iff.rfl
  constructor
  · exact fun h => ⟨locate_mono (fun q => (folders q).mp) h.located, (folders _).not.mp h.noFolder⟩
  · exact fun h => ⟨locate_mono (fun q => (folders q).mpr) h.located, (folders _).not.mpr h.noFolder⟩

theorem putContent_eq_ok {bytes : Bytes} : d.putContent here p bytes = .ok e ↔
    IsPlaceable d here p ∧ e = d.put (resolve here p) (.file bytes) := by
  constructor
  · intro put
    unfold putContent at put
    split at put
    · exact absurd put (by simp)
    · next r located =>
      obtain rfl := locate_eq_resolve located
      split at put
      · exact absurd put (by simp)
      · next noFolder => exact ⟨⟨located, noFolder⟩, (Except.ok.inj put).symm⟩
  · rintro ⟨placeable, rfl⟩
    unfold putContent
    rw [placeable.located]
    dsimp only
    split
    · next folder => exact absurd folder placeable.noFolder
    · rfl

/-- The step that puts content at a path. -/
theorem run_putContent (p : Path) (bytes : Bytes) (env : Env) (s : State) :
    (IsPlaceable s.disk env.here p ∧
      (change fun disk here => disk.putContent here p bytes).run env s
        = (.ok (), { s with disk := s.disk.put (resolve env.here p) (.file bytes) })) ∨
    (¬IsPlaceable s.disk env.here p ∧ ∃ failure,
      (change fun disk here => disk.putContent here p bytes).run env s = (.error failure, s)) := by
  cases put : s.disk.putContent env.here p bytes with
  | ok disk =>
    obtain ⟨placeable, rfl⟩ := putContent_eq_ok.mp put
    exact .inl ⟨placeable, run_change_eq_ok.mpr ⟨_, put, rfl⟩⟩
  | error error =>
    refine .inr ⟨fun placeable => ?_, _, run_change_of_error put⟩
    exact absurd (put.symm.trans (putContent_eq_ok.mpr ⟨placeable, rfl⟩)) (by simp)

/-- The writing of a file, which is emptied before it gets its content. -/
def putFile (p : Path) (bytes : Bytes) : Act Unit := do
  change fun disk here => disk.putContent here p []
  change fun disk here => disk.putContent here p bytes

/-- A file is written, or nothing happens. -/
theorem run_putFile (p : Path) (bytes : Bytes) (env : Env) (s : State) :
    (IsPlaceable s.disk env.here p ∧ ∃ t, (putFile p bytes).run env s = (.ok (), t) ∧
      (∀ q, t.disk.find? q = if q = resolve env.here p then some (.file bytes)
        else s.disk.find? q) ∧
      ∀ p', IsPlaceable t.disk env.here p' ↔ IsPlaceable s.disk env.here p') ∨
    (¬IsPlaceable s.disk env.here p ∧ ∃ failure,
      (putFile p bytes).run env s = (.error failure, s)) := by
  rw [putFile, run_bind]
  rcases run_putContent p [] env s with ⟨placeable, puts⟩ | ⟨lost, failure, fails⟩
  · have root := placeable.root
    have noFolder : (s.disk.put (resolve env.here p) (.file [])).find? (resolve env.here p)
        ≠ some .folder := by
      rw [find?_put _ _ _ _ root, if_pos rfl]
      simp
    rw [puts]
    dsimp only
    rcases run_putContent p bytes env
      { s with disk := s.disk.put (resolve env.here p) (.file []) } with
      ⟨-, puts'⟩ | ⟨lost, -⟩
    · refine .inl ⟨placeable, _, puts', fun q => ?_, fun p' => ?_⟩
      · rw [find?_put _ _ _ _ root]
        split
        · rfl
        · next other => rw [find?_put _ _ _ _ root, if_neg other]
      · exact (isPlaceable_put noFolder).trans (isPlaceable_put placeable.noFolder)
    · exact absurd ((isPlaceable_put placeable.noFolder).mpr placeable) lost
  · rw [fails]
    exact .inr ⟨lost, failure, rfl⟩

/-- A file that was written to the end has got its content, and all else is where it was. -/
theorem run_putFile_eq_ok {bytes : Bytes} {t : State}
    (ran : (putFile p bytes).run env s = (.ok (), t)) :
    IsPlaceable s.disk env.here p ∧
      (∀ q, t.disk.find? q = if q = resolve env.here p then some (.file bytes)
        else s.disk.find? q) ∧
      ∀ p', IsPlaceable t.disk env.here p' ↔ IsPlaceable s.disk env.here p' := by
  rcases run_putFile p bytes env s with ⟨placeable, u, ran', written, same⟩ | ⟨-, failure, fails⟩
  · obtain rfl : u = t := congrArg Prod.snd (ran'.symm.trans ran)
    exact ⟨placeable, written, same⟩
  · exact absurd (fails.symm.trans ran) (by simp)

theorem writeText_eq {t : Text} {bytes : Bytes} (encoded : Utf8.encode t = some bytes) (p : Path) :
    writeText p t = putFile p bytes := by
  rw [writeText, putFile, encode, encoded, pure_bind]

/-! ## Members -/

/-- Whether entries can be members: their names are plain and end nowhere before their end, and their
names and texts can be written. -/
def IsArchivable (b : Bundle) : Prop :=
  ∀ entry ∈ b, Path.isPlainName entry.1 = true ∧ .scalar '\x00' ∉ entry.1 ∧
    entry.1.isEncodable = true ∧ (Archive.nameBytes entry.1).length ≤ Archive.nameLimit ∧
    entry.2.isEncodable = true

instance (b : Bundle) : Decidable (IsArchivable b) :=
  inferInstanceAs (Decidable (∀ entry ∈ b, Path.isPlainName entry.1 = true ∧
    .scalar '\x00' ∉ entry.1 ∧ entry.1.isEncodable = true ∧
    (Archive.nameBytes entry.1).length ≤ Archive.nameLimit ∧ entry.2.isEncodable = true))

theorem beforeZero_eq_self {key : Text} (nul : .scalar '\x00' ∉ key) : beforeZero key = key := by
  rw [beforeZero, List.takeWhile_eq_self_iff]
  intro c inside
  simpa using fun same : c = .scalar '\x00' => nul (same ▸ inside)

/-- The member with the bytes of an entry. -/
def memberOf (entry : Text × Text) : Member := ⟨entry.1, (Utf8.encode entry.2).getD []⟩

theorem members_eq {b : Bundle} (archivable : IsArchivable b) :
    members b = (b.map memberOf, .ok ()) := by
  induction b with
  | nil => rfl
  | cons entry rest ih =>
    rw [IsArchivable, List.forall_mem_cons] at archivable
    obtain ⟨⟨plain, nul, named, brief, encodable⟩, rest'⟩ := archivable
    obtain ⟨key, t⟩ := entry
    obtain ⟨bytes, encoded⟩ :=
      Option.isSome_iff_exists.mp ((Utf8.isSome_encode t).trans encodable)
    obtain ⟨name, encoded'⟩ :=
      Option.isSome_iff_exists.mp ((Utf8.isSome_encode key).trans named)
    have short : ¬Archive.nameLimit < name.length := by
      rw [Archive.nameBytes, encoded', Option.getD_some] at brief
      exact Nat.not_lt.mpr brief
    have first : member (key, t) = .ok (memberOf (key, t)) := by
      simp only [member, plain, if_true, beforeZero_eq_self nul, encoded, encoded', if_neg short,
        memberOf, Option.getD_some]
    rw [members, first, ih rest']
    rfl

/-! ## Names with endings -/

/-- Whether a name stays what it is, and stays in one piece, with an ending behind it. -/
structure IsStem (name : Text) : Prop where
  nameable : Name.isNameable name = true
  nonempty : name ≠ []
  slash : .scalar '/' ∉ name
  dot : .scalar '.' ∉ name
  nul : .scalar '\x00' ∉ name

theorem resolve_child {name : Text} (down : Name.ofText name ≠ Name.up) (here : Route)
    (folder : Path) : resolve here (child folder name) = fileOf (resolve here folder) name := by
  rw [resolve_eq, resolve_eq, names_child, List.foldl_append, List.foldl_cons,
    List.foldl_nil, follow, if_neg down]
  rfl

theorem absolute_child {name : Text} (down : name ≠ "..") (here : Route) (folder : Path) :
    absolute here (child folder name) = child (absolute here folder) name := by
  rw [absolute, absolute, child, child, List.foldl_append, List.foldl_cons, List.foldl_nil,
    if_neg down]

/-- A path to a name in a folder passes what the folder's path passes, and then the name. -/
theorem passes_child {name : Text} (down : Name.ofText name ≠ Name.up) {q : Route} :
    Passes here (child folder name) q
      ↔ Passes here folder q ∨ q = fileOf (resolve here folder) name := by
  constructor
  · rintro ⟨first, le, rfl⟩
    rw [names_child] at le
    rcases List.prefix_concat_iff.mp le with rfl | before
    · right
      rw [← resolve_child down, ← names_child]
      rfl
    · exact .inl ⟨first, before, rfl⟩
  · rintro (⟨first, le, rfl⟩ | rfl)
    · refine ⟨first, le.trans ?_, rfl⟩
      rw [names_child]
      exact List.prefix_append _ _
    · rw [← resolve_child down]
      exact passes_resolve here _

/-- The path of the archive of a name in a folder. -/
def archivePath (folder : Path) (name : Text) : Path := child folder (name ++ ".zip")

/-- The path of the digest of the archive of a name in a folder. -/
def digestPath (folder : Path) (name : Text) : Path := child folder (name ++ ".zip.sha256")

theorem append_ne_up (name : Text) {ending : Text} (long : 3 ≤ (Name.ofText ending).length) :
    Name.ofText (name ++ ending) ≠ Name.up := by
  intro same
  have two : Name.up.length = 2 := rfl
  have lengths := congrArg List.length same
  rw [Name.ofText_append, List.length_append, two] at lengths
  omega

theorem resolve_archivePath (here : Route) (folder : Path) (name : Text) :
    resolve here (archivePath folder name) = fileOf (resolve here folder) (name ++ ".zip") :=
  resolve_child (append_ne_up name (by decide)) here folder

theorem resolve_digestPath (here : Route) (folder : Path) (name : Text) :
    resolve here (digestPath folder name) = fileOf (resolve here folder) (name ++ ".zip.sha256") :=
  resolve_child (append_ne_up name (by decide)) here folder

namespace IsStem

variable {name : Text}

theorem notDot (stem : IsStem name) : name ≠ "." := by
  rintro rfl
  exact stem.dot (by decide)

theorem down (stem : IsStem name) : name ≠ ".." := by
  rintro rfl
  exact stem.dot (by decide)

theorem ofText_ne_up (stem : IsStem name) : Name.ofText name ≠ Name.up :=
  (Name.ofText_eq_up_iff stem.nameable).not.mpr stem.down

theorem archiveName_eq (stem : IsStem name) : archiveName (some name) = name := by
  have bare : archiveEnding.isSuffixOf name = false := by
    rw [Bool.eq_false_iff, ne_eq, List.isSuffixOf_iff_suffix]
    exact fun ends => stem.dot (ends.subset (by decide))
  obtain ⟨c, rest, rfl⟩ := List.exists_cons_of_ne_nil stem.nonempty
  simp only [archiveName, bare]
  rfl

theorem below_ending (stem : IsStem name) {ending : Text} (slash : CodePoint.scalar '/' ∉ ending)
    (some : 2 ≤ ending.length) (folder : Path) :
    folder.below (name ++ ending) = child folder (name ++ ending) := by
  refine below_eq_child ?_ ?_ ?_ folder
  · exact fun member => (List.mem_append.mp member).elim stem.slash slash
  · simp [stem.nonempty]
  · intro same
    have long := congrArg List.length same
    have one : (Text.ofString ".").length = 1 := rfl
    rw [List.length_append, one] at long
    omega

theorem stemLength_archive (stem : IsStem name) :
    Path.stemLength (name ++ ".zip") = name.length := by
  have backwards : (name ++ Text.ofString ".zip").reverse
      = .scalar 'p' :: .scalar 'i' :: .scalar 'z' :: .scalar '.' :: name.reverse := by
    rw [List.reverse_append]
    rfl
  have positive := List.length_pos_iff.mpr stem.nonempty
  have four : (Text.ofString ".zip").length = 4 := rfl
  simp only [Path.stemLength, backwards]
  simp [four, stem.nonempty]

theorem withEnding_archivePath (stem : IsStem name) (folder : Path) :
    (archivePath folder name).withEnding ".zip.sha256" = digestPath folder name := by
  have last : (archivePath folder name).name = name ++ ".zip" := by
    simp [archivePath, child, Path.name]
  rw [Path.withEnding, last, stem.stemLength_archive, List.take_left]
  simp [archivePath, digestPath, child]

end IsStem

/-! ## Archives -/

/-- The archive of a bundle. -/
def archiveOf (bundle : Bundle) : Archive := ⟨bundle.sorted.map memberOf⟩

/-- The bytes of the digest of an archive. -/
def digestBytes (archive : Archive) : Bytes :=
  (Utf8.encode (Sha256.hexDigest archive.bytes)).getD []

theorem isEncodable_hexDigest (bytes : Bytes) : (Sha256.hexDigest bytes).isEncodable = true := by
  rw [Text.isEncodable, List.all_eq_true]
  intro c member
  have ascii := (Sha256.isSmall_hexDigest bytes c member).1.1.1
  cases c with
  | scalar c => rfl
  | surrogate s => exact absurd ascii (by simp [CodePoint.val]; omega)

theorem encode_hexDigest (archive : Archive) :
    Utf8.encode (Sha256.hexDigest archive.bytes) = some (digestBytes archive) := by
  obtain ⟨bytes, encoded⟩ := Option.isSome_iff_exists.mp
    ((Utf8.isSome_encode _).trans (isEncodable_hexDigest archive.bytes))
  rw [digestBytes, encoded, Option.getD_some]

/-- The disk after the folders for an archive have been made. -/
def opened (d : Disk) (here : Route) (folder : Path) : Disk :=
  (d.makeFolders here folder.anchor folder.names.reverse).2

/-- Whether an archive gets to its place: the folders can be made, and no folder lies there. -/
structure CanArchive (d : Disk) (here : Route) (folder : Path) (name : Text) : Prop where
  made : (d.makeFolders here folder.anchor folder.names.reverse).1 = .ok ()
  archive : IsPlaceable (opened d here folder) here (archivePath folder name)

/-- Which folders are made for an archive depends on the way of the path only. -/
theorem opened_congr {on : Route → Prop} (agree : Agree on d e)
    (within : ∀ r, Passes here folder r → on r) :
    (e.makeFolders here folder.anchor folder.names.reverse).1
        = (d.makeFolders here folder.anchor folder.names.reverse).1 ∧
      Agree on (opened d here folder) (opened e here folder) :=
  makeFolders_congr agree fun r passes => within r (by rwa [List.reverse_reverse] at passes)

theorem adds_opened (d : Disk) (here : Route) (folder : Path) : Adds d (opened d here folder) :=
  (adds_makeFolders here folder.anchor folder.names.reverse).1

theorem madeAt_opened (d : Disk) (here : Route) (folder : Path) (q : Route) :
    MadeAt (Passes here folder) d (opened d here folder) q :=
  madeAt_foldersOf d here folder q

/-- Where nothing is on the way, nothing is made. -/
theorem find?_opened {q : Route} (away : ¬Passes here folder q) :
    (opened d here folder).find? q = d.find? q := by
  rcases madeAt_opened d here folder q with same | ⟨-, -, passes⟩
  · exact same
  · exact absurd passes away

/-- Whether an archive gets to its place depends on the way to it only. -/
theorem canArchive_congr {name : Text} (agree : Agree (Passes here (archivePath folder name)) d e) :
    CanArchive e here folder name ↔ CanArchive d here folder name := by
  have within (r : Route) (passes : Passes here folder r) :
      Passes here (archivePath folder name) r :=
    (passes_child (append_ne_up name (by decide))).mpr (.inl passes)
  obtain ⟨outcome, agree'⟩ := opened_congr agree within
  constructor
  · exact fun can => ⟨outcome.symm.trans can.made, (isPlaceable_congr agree').mp can.archive⟩
  · exact fun can => ⟨outcome.trans can.made, (isPlaceable_congr agree').mpr can.archive⟩

/-- Whether the digest gets to its place depends on the way to it only. -/
theorem canDigest_congr {name : Text} (agree : Agree (Passes here (digestPath folder name)) d e) :
    IsPlaceable (opened e here folder) here (digestPath folder name) ↔
      IsPlaceable (opened d here folder) here (digestPath folder name) :=
  isPlaceable_congr (opened_congr agree fun _ passes =>
    (passes_child (append_ne_up name (by decide))).mpr (.inl passes)).2

/-- Writing an archive is making folders and writing two files; an entry that fails ends it between
them. -/
theorem writeArchive_eq (folder : Path) (bundle : Bundle) (name : Option Text) :
    writeArchive folder bundle name = (do
      Act.makeFolders folder
      putFile (folder.below (archiveName name ++ archiveEnding))
        (Archive.bytes ⟨(members bundle.sorted).1⟩)
      Act.ofExcept (members bundle.sorted).2
      putFile ((folder.below (archiveName name ++ archiveEnding)).withEnding ".zip.sha256")
        (digestBytes ⟨(members bundle.sorted).1⟩)
      return (folder.below (archiveName name ++ archiveEnding), ⟨(members bundle.sorted).1⟩)) := by
  rw [writeArchive, ← writeText_eq (encode_hexDigest _)]
  simp only [putFile, bind_assoc]

/-- An archive and its digest are written one after the other, and nothing follows a failure. -/
theorem run_writeArchive {bundle : Bundle} {name : Text} (stem : IsStem name)
    (archivable : IsArchivable bundle) (folder : Path) (env : Env) (s : State) :
    (¬CanArchive s.disk env.here folder name ∧ ∃ failure t,
      (writeArchive folder bundle (some name)).run env s = (.error failure, t) ∧
      (opened s.disk env.here folder).Same t.disk) ∨
    (CanArchive s.disk env.here folder name ∧
      ((¬IsPlaceable (opened s.disk env.here folder) env.here (digestPath folder name) ∧
        ∃ failure t, (writeArchive folder bundle (some name)).run env s = (.error failure, t) ∧
        ∀ q, t.disk.find? q = if q = resolve env.here (archivePath folder name) then
          some (.file (archiveOf bundle).bytes) else (opened s.disk env.here folder).find? q) ∨
      (IsPlaceable (opened s.disk env.here folder) env.here (digestPath folder name) ∧
        ∃ t, (writeArchive folder bundle (some name)).run env s
          = (.ok (archivePath folder name, archiveOf bundle), t) ∧
        ∀ q, t.disk.find? q = if q = resolve env.here (digestPath folder name) then
            some (.file (digestBytes (archiveOf bundle)))
          else if q = resolve env.here (archivePath folder name) then
            some (.file (archiveOf bundle).bytes)
          else (opened s.disk env.here folder).find? q))) := by
  have sorted : IsArchivable bundle.sorted := fun entry member =>
    archivable entry ((List.mergeSort_perm _ _).mem_iff.mp member)
  have path : folder.below (archiveName (some name) ++ archiveEnding) = archivePath folder name := by
    rw [stem.archiveName_eq]
    exact stem.below_ending (by decide) (by decide) folder
  have parts : writeArchive folder bundle (some name) = (do
      Act.makeFolders folder
      putFile (archivePath folder name) (archiveOf bundle).bytes
      putFile (digestPath folder name) (digestBytes (archiveOf bundle))
      return (archivePath folder name, archiveOf bundle)) := by
    rw [writeArchive_eq, path, members_eq sorted, stem.withEnding_archivePath]
    rfl
  have started : CanArchive s.disk env.here folder name ↔
      (s.disk.makeFolders env.here folder.anchor folder.names.reverse).1 = .ok () ∧
        IsPlaceable (opened s.disk env.here folder) env.here (archivePath folder name) :=
    ⟨fun can => ⟨can.made, can.archive⟩, fun ⟨made, archive⟩ => ⟨made, archive⟩⟩
  rw [parts, run_bind, run_makeFolders, started, opened]
  rcases made : s.disk.makeFolders env.here folder.anchor folder.names.reverse with
    ⟨error | ⟨⟩, d⟩
  · exact .inl ⟨by simp, _, _, rfl, fun q => rfl⟩
  dsimp only [Except.mapError]
  rw [run_bind]
  rcases run_putFile (archivePath folder name) (archiveOf bundle).bytes env { s with disk := d } with
    ⟨placeable, t, puts, written, same⟩ | ⟨lost, failure, fails⟩
  · rw [puts]
    dsimp only
    rw [run_bind]
    refine .inr ⟨⟨rfl, placeable⟩, ?_⟩
    rcases run_putFile (digestPath folder name) (digestBytes (archiveOf bundle)) env t with
      ⟨placeable', u, puts', written', -⟩ | ⟨lost, failure, fails⟩
    · rw [puts']
      refine .inr ⟨(same _).mp placeable', u, rfl, fun q => ?_⟩
      rw [written', written]
    · rw [fails]
      exact .inl ⟨(same _).not.mp lost, failure, t, rfl, written⟩
  · rw [fails]
    exact .inl ⟨by simpa using lost, failure, _, rfl, fun q => rfl⟩

end Grimoire.Bundle
