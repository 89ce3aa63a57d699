import Grimoire.Proofs.Archive.Reading
import Grimoire.Proofs.Book.Sample
import Grimoire.Proofs.Bundle.Archiving

/-!
# The names in an archive

An archive is to be unpacked into a folder, and nothing of it is to get beside the folder. For that its
members have to have the names of files (`Bundle.IsFileName`). What is asked of the key of an entry is
less: that it is its own last name as a path, so that neither a slash nor a single dot passes
(`Path.isPlainName_iff`). Members are named after their keys, up to the first zero
(`Bundle.forall₂_members`), so an archive that was written has the names of files exactly if no key is
empty, one dot or two dots up to its first zero (`Bundle.writeArchive_names`).
-/

namespace Grimoire

/-- A plain name is one without a slash that is not a single dot. -/
theorem Path.isPlainName_iff {key : Text} :
    Path.isPlainName key = true ↔ CodePoint.scalar '/' ∉ key ∧ key ≠ "." := by
  constructor
  · intro plain
    refine ⟨Bundle.slash_notMem_of_isPlainName plain, ?_⟩
    rintro rfl
    exact absurd plain (by decide)
  · rintro ⟨slash, dot⟩
    by_cases empty : key = []
    · subst empty
      rfl
    · simp [Path.isPlainName, Path.name, Path.ofText, Path.namesOf_eq_singleton slash empty dot]

namespace Bundle

open Act Disk

variable {env : Env} {s t : State} {folder p : Path} {bundle : Bundle} {archive : Archive}
  {name : Option Text} {entries : List (Text × Text)} {ms : List Member}

/-! ## Names and keys -/

/-- Whether a name is that of a file in the folder that an archive is unpacked into. -/
structure IsFileName (name : Text) : Prop where
  nonempty : name ≠ []
  slash : CodePoint.scalar '/' ∉ name
  dot : name ≠ "."
  up : name ≠ ".."

/-- No slash gets into a key by cutting it. -/
theorem slash_notMem_beforeZero {key : Text} (plain : Path.isPlainName key = true) :
    CodePoint.scalar '/' ∉ beforeZero key := fun inside =>
  (Path.isPlainName_iff.mp plain).1 ((List.takeWhile_prefix _).subset inside)

/-- Of a plain name, what stands before the first zero is the name of a file unless it is empty or
dots. -/
theorem isFileName_beforeZero {key : Text} (plain : Path.isPlainName key = true) :
    IsFileName (beforeZero key) ↔
      beforeZero key ≠ [] ∧ beforeZero key ≠ "." ∧ beforeZero key ≠ ".." :=
  ⟨fun file => ⟨file.nonempty, file.dot, file.up⟩,
    fun ⟨nonempty, dot, up⟩ => ⟨nonempty, slash_notMem_beforeZero plain, dot, up⟩⟩

/-! ## Members of entries -/

/-- Whether a member is what an entry becomes. -/
structure Becomes (entry : Text × Text) (m : Member) : Prop where
  plain : Path.isPlainName entry.1 = true
  name : m.name = beforeZero entry.1
  content : Utf8.encode entry.2 = some m.content
  named : Archive.IsNamed m

theorem becomes_member {entry : Text × Text} {m : Member} (made : member entry = .ok m) :
    Becomes entry m := by
  unfold member at made
  dsimp only at made
  split at made
  · next plain =>
    split at made
    · exact absurd made (by simp)
    · exact absurd made (by simp)
    · next content nameBytes encoded encodedName =>
      split at made
      · exact absurd made (by simp)
      · next brief =>
        obtain rfl := Except.ok.inj made
        have encodable : (beforeZero entry.1).isEncodable = true := by
          rw [← Utf8.isSome_encode, encodedName]
          rfl
        refine ⟨plain, rfl, encoded, encodable, ?_⟩
        rw [Archive.nameBytes, encodedName, Option.getD_some]
        exact Nat.lt_succ_of_le (Nat.not_lt.mp brief)
  · exact absurd made (by simp)

/-- If no entry fails, each of them has become a member. -/
theorem forall₂_members (made : members entries = (ms, .ok ())) : List.Forall₂ Becomes entries ms := by
  induction entries generalizing ms with
  | nil =>
    obtain rfl : [] = ms := congrArg Prod.fst made
    exact .nil
  | cons entry rest ih =>
    rw [members] at made
    split at made
    · exact absurd (congrArg Prod.snd made) (by simp)
    · next m first =>
      obtain ⟨rfl, outcome⟩ := Prod.mk.inj made
      exact .cons (becomes_member first) (ih (Prod.ext rfl outcome))

theorem map_name_of_becomes (becomes : List.Forall₂ Becomes entries ms) :
    ms.map Member.name = entries.map fun entry => beforeZero entry.1 := by
  induction becomes with
  | nil => rfl
  | cons first _ ih => rw [List.map_cons, List.map_cons, first.name, ih]

/-- What holds of the names of members is what holds of the keys up to their first zeros. -/
theorem forall_name_of_becomes (becomes : List.Forall₂ Becomes entries ms) (good : Text → Prop) :
    (∀ m ∈ ms, good m.name) ↔ ∀ entry ∈ entries, good (beforeZero entry.1) := by
  have names := map_name_of_becomes becomes
  rw [← List.forall_mem_map (f := Member.name) (P := good), names, List.forall_mem_map]

theorem named_of_becomes (becomes : List.Forall₂ Becomes entries ms) :
    ∀ m ∈ ms, Archive.IsNamed m := by
  induction becomes with
  | nil => exact fun m member => absurd member List.not_mem_nil
  | cons first _ ih => exact List.forall_mem_cons.mpr ⟨first.named, ih⟩

theorem plain_of_becomes (becomes : List.Forall₂ Becomes entries ms) :
    ∀ entry ∈ entries, Path.isPlainName entry.1 = true := by
  induction becomes with
  | nil => exact fun entry member => absurd member List.not_mem_nil
  | cons first _ ih => exact List.forall_mem_cons.mpr ⟨first.plain, ih⟩

/-! ## What is written -/

/-- A text with an ending means a path whose last name has the ending. -/
theorem exists_below_ending {ending : Text} (slash : CodePoint.scalar '/' ∉ ending)
    (long : 2 ≤ ending.length) (folder : Path) (name : Text) :
    ∃ above piece, folder.below (name ++ ending) = child above (piece ++ ending) := by
  obtain ⟨pieces, piece, -, cut⟩ := Text.splitOn_append_plain slash name
  have one : (Text.ofString ".").length = 1 := rfl
  have kept : piece ++ ending ≠ [] ∧ piece ++ ending ≠ "." := by
    constructor <;>
    · intro same
      have lengths := congrArg List.length same
      simp only [List.length_append, List.length_nil, one] at lengths
      omega
  have names : Path.namesOf (name ++ ending)
      = (pieces.filter fun name => name ≠ [] ∧ name ≠ ".") ++ [piece ++ ending] := by
    rw [Path.namesOf, cut, List.filter_append, List.filter_singleton, decide_eq_true kept,
      cond_true]
  unfold Path.below
  split
  · exact ⟨⟨folder.anchor, folder.names ++ _⟩, piece, by rw [names, child, List.append_assoc]⟩
  · exact ⟨⟨Path.anchorOf (name ++ ending), _⟩, piece, by rw [names, child]⟩

/-- The digest of an archive does not lie where the archive lies. -/
theorem resolve_digest_ne (here : Route) (folder : Path) (name : Text) :
    resolve here ((folder.below (name ++ archiveEnding)).withEnding ".zip.sha256")
      ≠ resolve here (folder.below (name ++ archiveEnding)) := by
  have slash : CodePoint.scalar '/' ∉ archiveEnding := by decide
  obtain ⟨above, piece, below⟩ := exists_below_ending slash (by decide) folder name
  have beside : (child above (piece ++ archiveEnding)).withEnding ".zip.sha256"
      = child above ((piece ++ archiveEnding).take (Path.stemLength (piece ++ archiveEnding))
          ++ ".zip.sha256") := by
    simp [Path.withEnding, Path.name, child]
  rw [below, beside, resolve_child (append_ne_up _ (by decide)),
    resolve_child (append_ne_up _ (by decide))]
  intro same
  have last := congrArg List.getLast? (List.singleton_inj.mp (List.append_cancel_left same))
  rw [Name.ofText_append, Name.ofText_append, List.getLast?_append_of_ne_nil _ (by decide),
    List.getLast?_append_of_ne_nil _ (by decide)] at last
  exact absurd last (by decide)

/-- What was written to the end lies at the path that is given back, and no entry has failed. -/
theorem fileAt_writeArchive
    (ran : (writeArchive folder bundle name).run env s = (.ok (p, archive), t)) :
    t.disk.fileAt env.here p = some archive.bytes ∧
      members bundle.sorted = (archive.members, .ok ()) := by
  rw [writeArchive_eq] at ran
  obtain ⟨⟨⟩, made, -, files⟩ := run_bind_eq_ok.mp ran
  obtain ⟨⟨⟩, u, archived, rest⟩ := run_bind_eq_ok.mp files
  obtain ⟨⟨⟩, u', ended, rest'⟩ := run_bind_eq_ok.mp rest
  obtain ⟨⟨⟩, v, digested, done⟩ := run_bind_eq_ok.mp rest'
  rw [run_ofExcept] at ended
  obtain ⟨outcome, rfl⟩ := Prod.mk.inj ended
  rw [run_pure] at done
  obtain ⟨given, rfl⟩ := Prod.mk.inj done
  obtain ⟨rfl, rfl⟩ := Prod.mk.inj (Except.ok.inj given)
  obtain ⟨placeable, written, same⟩ := run_putFile_eq_ok archived
  obtain ⟨-, written', same'⟩ := run_putFile_eq_ok digested
  refine ⟨fileAt_eq_some.mpr ⟨_, ((same' _).mpr ((same _).mpr placeable)).located, ?_⟩,
    Prod.ext rfl outcome⟩
  rw [written', if_neg (resolve_digest_ne _ _ _).symm, written, if_pos rfl]

/-- On a disk with nothing on it, nothing is in the way of an archive. -/
theorem exists_run_writeArchive (archivable : IsArchivable bundle) :
    ∃ t, (writeArchive ⟨.here, []⟩ bundle (some "b")).run Env.sample State.empty
      = (.ok (archivePath ⟨.here, []⟩ "b", archiveOf bundle), t) := by
  have stem : IsStem "b" := ⟨by decide, by decide, by decide, by decide, by decide⟩
  have can : CanArchive State.empty.disk Env.sample.here ⟨.here, []⟩ "b" :=
    ⟨by decide, by decide, by decide⟩
  have beside : IsPlaceable (opened State.empty.disk Env.sample.here ⟨.here, []⟩) Env.sample.here
      (digestPath ⟨.here, []⟩ "b") := ⟨by decide, by decide⟩
  rcases run_writeArchive stem archivable ⟨.here, []⟩ Env.sample State.empty with
    ⟨lost, -⟩ | ⟨-, ⟨lost, -⟩ | ⟨-, t, ran, -⟩⟩
  · exact absurd can lost
  · exact absurd beside lost
  · exact ⟨t, ran⟩

/-- Every member of an archive that was written has the name of a file, unless some key is empty, one
dot or two dots up to its first zero; a key with a slash in it, and a single dot, is in no such
archive. -/
theorem writeArchive_names
    (ran : (writeArchive folder bundle name).run env s = (.ok (p, archive), t)) :
    t.disk.fileAt env.here p = some archive.bytes ∧
      Archive.read? archive.bytes = some archive.members ∧
      archive.members.map Member.name = bundle.sorted.map (fun entry => beforeZero entry.1) ∧
      (∀ entry ∈ bundle, CodePoint.scalar '/' ∉ entry.1 ∧ entry.1 ≠ ".") ∧
      (∀ m ∈ archive.members, CodePoint.scalar '/' ∉ m.name) ∧
      ((∀ m ∈ archive.members, IsFileName m.name) ↔ ∀ entry ∈ bundle,
        beforeZero entry.1 ≠ [] ∧ beforeZero entry.1 ≠ "." ∧ beforeZero entry.1 ≠ "..") := by
  obtain ⟨lies, made⟩ := fileAt_writeArchive ran
  have becomes := forall₂_members made
  have inside (entry : Text × Text) : entry ∈ bundle.sorted ↔ entry ∈ bundle :=
    (List.mergeSort_perm _ _).mem_iff
  have plain (entry : Text × Text) (member : entry ∈ bundle) : Path.isPlainName entry.1 = true :=
    plain_of_becomes becomes entry ((inside entry).mpr member)
  refine ⟨lies, Archive.read?_bytes (named_of_becomes becomes), map_name_of_becomes becomes,
    fun entry member => Path.isPlainName_iff.mp (plain entry member),
    (forall_name_of_becomes becomes (CodePoint.scalar '/' ∉ ·)).mpr fun entry member =>
      slash_notMem_beforeZero (plain entry ((inside entry).mp member)), ?_⟩
  rw [forall_name_of_becomes becomes IsFileName]
  refine forall_congr' fun entry => ?_
  rw [inside]
  exact forall_congr' fun member => isFileName_beforeZero (plain entry member)

theorem writeArchive_names_plain :
    ∃ t, (writeArchive ⟨.here, []⟩ [("a.txt", "1")] (some "b")).run Env.sample State.empty
        = (.ok (archivePath ⟨.here, []⟩ "b", archiveOf [("a.txt", "1")]), t) ∧
      t.disk.fileAt Env.sample.here (archivePath ⟨.here, []⟩ "b")
        = some (archiveOf [("a.txt", "1")]).bytes ∧
      ∀ m ∈ (archiveOf [("a.txt", "1")]).members, IsFileName m.name := by
  have archivable : IsArchivable [("a.txt", "1")] := by decide
  obtain ⟨t, ran⟩ := exists_run_writeArchive archivable
  obtain ⟨lies, -, -, -, -, names⟩ := writeArchive_names ran
  exact ⟨t, ran, lies, names.mpr (by decide)⟩

/-- Two dots are their own last name, so they get into an archive, where they lead out of the folder it
is unpacked into. -/
theorem writeArchive_up :
    ∃ t p archive, (writeArchive ⟨.here, []⟩ [("ok", "1"), ("..", "x")] (some "b")).run Env.sample
        State.empty = (.ok (p, archive), t) ∧
      t.disk.fileAt Env.sample.here p = some archive.bytes ∧
      ¬∀ m ∈ archive.members, IsFileName m.name := by
  have archivable : IsArchivable [("ok", "1"), ("..", "x")] := by decide
  obtain ⟨t, ran⟩ := exists_run_writeArchive archivable
  obtain ⟨lies, -⟩ := fileAt_writeArchive ran
  have member : memberOf ("..", "x") ∈ (archiveOf [("ok", "1"), ("..", "x")]).members :=
    List.mem_map_of_mem ((List.mergeSort_perm _ _).mem_iff.mpr (by decide))
  exact ⟨t, _, _, ran, lies, fun names => (names _ member).up rfl⟩

end Bundle

end Grimoire
