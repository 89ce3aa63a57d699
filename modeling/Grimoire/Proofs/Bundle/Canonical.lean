import Grimoire.Proofs.Archive.Listing
import Grimoire.Proofs.Bundle.Members

/-!
# Archives are canonical

What an archive of a bundle holds depends on the mapping only: not on the order of the entries, nor on
the folder, the disk or the time. Its records are the one list that shows the mapping in order
(`Bundle.IsCanonical`), and two such lists are the same exactly if the mappings are
(`Bundle.IsCanonical.eq_iff`). An archive is written if there is room for it and for its digest, and if
the names can be written; the digest that lies beside it then is accepted for it, however it is spelled
(`Bundle.writeArchive_canonical`).
-/

namespace Grimoire.Bundle

open Act Disk

variable {env : Env} {s t : State} {folder p : Path} {b b' : Bundle} {archive : Archive}
  {name : Option Text} {records records' : List Archive.Record}

/-! ## Canonical lists of records -/

/-- Whether records show a bundle in order: one for each entry, by name. -/
structure IsCanonical (b : Bundle) (records : List Archive.Record) : Prop where
  increasing : (records.map (·.member.name)).Pairwise fun t u => Text.le t u = true ∧ t ≠ u
  keys : ∀ key, key ∈ records.map (·.member.name) ↔ key ∈ b.keys
  content : ∀ r ∈ records, ∃ t, Entries.find? r.member.name b = some t ∧
    Utf8.encode t = some r.member.content
  date : ∀ r ∈ records, r.date = ⟨1980, 1, 1, 0, 0, 0⟩
  mode : ∀ r ∈ records, r.mode = 0o644

namespace IsCanonical

/-- A record is there exactly if there is such an entry. -/
theorem mem_iff (canonical : IsCanonical b records) (r : Archive.Record) :
    r ∈ records ↔ (∃ t, Entries.find? r.member.name b = some t ∧
        Utf8.encode t = some r.member.content) ∧
      r.date = ⟨1980, 1, 1, 0, 0, 0⟩ ∧ r.mode = 0o644 := by
  refine ⟨fun inside => ⟨canonical.content r inside, canonical.date r inside,
    canonical.mode r inside⟩, ?_⟩
  rintro ⟨⟨t, found, encoded⟩, date, mode⟩
  have key : r.member.name ∈ b.keys := List.mem_map_of_mem (Entries.mem_of_find? found)
  obtain ⟨r', inside, named⟩ := List.mem_map.mp ((canonical.keys _).mpr key)
  obtain ⟨t', found', encoded'⟩ := canonical.content r' inside
  rw [named, found] at found'
  obtain rfl := Option.some.inj found'
  have written : r'.member.content = r.member.content :=
    Option.some.inj (encoded'.symm.trans encoded)
  have same : r' = r := by
    have date' := canonical.date r' inside
    have mode' := canonical.mode r' inside
    obtain ⟨⟨_, _⟩, _, _⟩ := r
    obtain ⟨⟨_, _⟩, _, _⟩ := r'
    simp only [Archive.Record.mk.injEq, Member.mk.injEq]
    exact ⟨⟨named, written⟩, date'.trans date.symm, mode'.trans mode.symm⟩
  exact same ▸ inside

/-- A text is found under a key exactly if there is a record with its bytes. -/
theorem find?_eq_some_iff (canonical : IsCanonical b records) (key t : Text) :
    Entries.find? key b = some t ↔
      ∃ r ∈ records, r.member.name = key ∧ Utf8.encode t = some r.member.content := by
  constructor
  · intro found
    have inside : key ∈ b.keys := List.mem_map_of_mem (Entries.mem_of_find? found)
    obtain ⟨r, member, rfl⟩ := List.mem_map.mp ((canonical.keys key).mpr inside)
    obtain ⟨t', found', encoded⟩ := canonical.content r member
    obtain rfl := Option.some.inj (found.symm.trans found')
    exact ⟨r, member, rfl, encoded⟩
  · rintro ⟨r, member, rfl, encoded⟩
    obtain ⟨t', found, encoded'⟩ := canonical.content r member
    rw [found, Utf8.encode_inj encoded encoded']

/-- Records are the same exactly if they show the same mapping. -/
theorem eq_iff (canonical : IsCanonical b records) (canonical' : IsCanonical b' records') :
    records = records' ↔ ∀ key, Entries.find? key b = Entries.find? key b' := by
  constructor
  · rintro rfl key
    refine Option.ext fun t => ?_
    rw [canonical.find?_eq_some_iff, canonical'.find?_eq_some_iff]
  · intro same
    have inside (r : Archive.Record) : r ∈ records ↔ r ∈ records' := by
      rw [canonical.mem_iff, canonical'.mem_iff, same]
    have before := List.pairwise_map.mp canonical.increasing
    have before' := List.pairwise_map.mp canonical'.increasing
    have perm : records.Perm records' := by
      refine (List.perm_ext_iff_of_nodup ?_ ?_).mpr inside
      · exact before.imp fun ⟨_, other⟩ equal => other (equal ▸ rfl)
      · exact before'.imp fun ⟨_, other⟩ equal => other (equal ▸ rfl)
    -- strictly increasing lists: two records cannot come in both orders
    refine perm.eq_of_pairwise (fun r r' _ _ less greater => ?_) before before'
    exact absurd (Text.le_antisymm less.1 greater.1) less.2

end IsCanonical

/-! ## What can be packed -/

/-- Whether the entries are those of a mapping from names of files to texts. -/
structure IsPackable (b : Bundle) : Prop where
  distinct : b.keys.Nodup
  file : ∀ key ∈ b.keys, IsFileName key ∧ CodePoint.scalar '\x00' ∉ key
  encodable : ∀ entry ∈ b, entry.2.isEncodable = true

/-- Whether the names of the entries can be written in headers. -/
def HasShortNames (b : Bundle) : Prop :=
  ∀ key ∈ b.keys, key.isEncodable = true ∧ (Archive.nameBytes key).length ≤ Archive.nameLimit

instance : DecidablePred IsFileName := fun name =>
  decidable_of_iff (name ≠ [] ∧ CodePoint.scalar '/' ∉ name ∧ name ≠ "." ∧ name ≠ "..")
    ⟨fun ⟨nonempty, slash, dot, up⟩ => ⟨nonempty, slash, dot, up⟩,
      fun file => ⟨file.nonempty, file.slash, file.dot, file.up⟩⟩

instance (b : Bundle) : Decidable (HasShortNames b) :=
  inferInstanceAs (Decidable (∀ key ∈ b.keys,
    key.isEncodable = true ∧ (Archive.nameBytes key).length ≤ Archive.nameLimit))

theorem mem_sorted {entry : Text × Text} : entry ∈ b.sorted ↔ entry ∈ b :=
  (List.mergeSort_perm _ _).mem_iff

theorem exists_of_becomes {entries : List (Text × Text)} {ms : List Member}
    (becomes : List.Forall₂ Becomes entries ms) : ∀ entry ∈ entries, ∃ m, Becomes entry m := by
  induction becomes with
  | nil => exact fun entry member => absurd member List.not_mem_nil
  | cons first _ ih => exact List.forall_mem_cons.mpr ⟨⟨_, first⟩, ih⟩

namespace IsPackable

theorem isArchivable_iff (packable : IsPackable b) : IsArchivable b.sorted ↔ HasShortNames b := by
  constructor
  · intro archivable key inside
    obtain ⟨entry, member, rfl⟩ := List.mem_map.mp inside
    obtain ⟨-, -, encodable, brief, -⟩ := archivable entry (mem_sorted.mpr member)
    exact ⟨encodable, brief⟩
  · intro named entry member
    have inside : entry.1 ∈ b.keys := List.mem_map_of_mem (mem_sorted.mp member)
    obtain ⟨⟨-, slash, dot, -⟩, nul⟩ := packable.file _ inside
    exact ⟨Path.isPlainName_iff.mpr ⟨slash, dot⟩, nul, (named _ inside).1, (named _ inside).2,
      packable.encodable entry (mem_sorted.mp member)⟩

/-- No entry fails exactly if the names can be written, and then there is a member for each. -/
theorem members_eq_ok_iff (packable : IsPackable b) :
    (members b.sorted).2 = .ok () ↔ HasShortNames b := by
  rw [← packable.isArchivable_iff]
  constructor
  · intro ended entry member
    have inside : entry.1 ∈ b.keys := List.mem_map_of_mem (mem_sorted.mp member)
    have becomes := forall₂_members (Prod.ext rfl ended)
    obtain ⟨m, became⟩ := exists_of_becomes becomes entry member
    have named := became.named
    rw [Archive.IsNamed, became.name, beforeZero_eq_self (packable.file _ inside).2] at named
    exact ⟨became.plain, (packable.file _ inside).2, named.1, Nat.le_of_lt_succ named.2,
      packable.encodable entry (mem_sorted.mp member)⟩
  · exact fun archivable => congrArg Prod.snd (members_eq archivable)

end IsPackable

/-- The records of a bundle. -/
def recordsOf (b : Bundle) : List Archive.Record :=
  (archiveOf b).members.map fun m => ⟨m, Archive.date, 0o644⟩

theorem map_name_recordsOf (b : Bundle) :
    (recordsOf b).map (·.member.name) = b.sorted.keys := by
  simp [recordsOf, archiveOf, memberOf, Entries.keys, Function.comp_def]

theorem IsPackable.isCanonical_recordsOf (packable : IsPackable b) :
    IsCanonical b (recordsOf b) := by
  have perm : b.sorted.keys.Perm b.keys := (List.mergeSort_perm _ _).map _
  refine ⟨?_, fun key => ?_, fun r inside => ?_, fun r inside => ?_, fun r inside => ?_⟩
  · rw [map_name_recordsOf]
    have ordered : b.sorted.keys.Pairwise fun t u => Text.le t u = true :=
      List.pairwise_map.mpr (Entries.pairwise_sorted b)
    exact ordered.and (perm.nodup_iff.mpr packable.distinct)
  · rw [map_name_recordsOf, perm.mem_iff]
  all_goals
    obtain ⟨m, member, rfl⟩ := List.mem_map.mp inside
  · obtain ⟨⟨key, t⟩, sorted, rfl⟩ : ∃ entry ∈ b.sorted, memberOf entry = m :=
      List.mem_map.mp member
    have inside := mem_sorted.mp sorted
    obtain ⟨bytes, encoded⟩ := Option.isSome_iff_exists.mp
      ((Utf8.isSome_encode t).trans (packable.encodable _ inside))
    refine ⟨t, (Entries.mem_iff_find? packable.distinct).mp inside, ?_⟩
    rw [encoded, memberOf, encoded, Option.getD_some]
  · rfl
  · rfl

/-! ## Room for archives -/

/-- Where an archive of a name goes. -/
def archiveAt (folder : Path) (name : Option Text) : Path :=
  folder.below (archiveName name ++ archiveEnding)

/-- Whether the folders can be made, and an archive and its digest can be written into them. -/
structure HasRoom (d : Disk) (here : Route) (folder : Path) (name : Option Text) : Prop where
  made : (d.makeFolders here folder.anchor folder.names.reverse).1 = .ok ()
  archive : IsPlaceable (opened d here folder) here (archiveAt folder name)
  digest : IsPlaceable (opened d here folder) here
    ((archiveAt folder name).withEnding ".zip.sha256")

/-- What lies on a disk after an archive was written: the archive, with records that can be listed, and
its digest, which is accepted for it in each of its spellings. -/
def IsArchived (d : Disk) (here : Route) (p : Path) (records : List Archive.Record) : Prop :=
  ∃ bytes digest, d.fileAt here p = some bytes ∧ Archive.records? bytes = some records ∧
    (d.fileAt here (p.withEnding ".zip.sha256")).map Utf8.decode = some (.ok digest) ∧
    ∀ spelled, Digest.IsSpelling digest spelled →
      Digest.isExpected (Sha256.hexDigest bytes) spelled = true

/-- An archive is written exactly if there is room for it and no entry fails. -/
theorem writeArchive_eq_ok_iff :
    (∃ p archive t, (writeArchive folder b name).run env s = (.ok (p, archive), t)) ↔
      HasRoom s.disk env.here folder name ∧ (members b.sorted).2 = .ok () := by
  have room : HasRoom s.disk env.here folder name ↔
      (s.disk.makeFolders env.here folder.anchor folder.names.reverse).1 = .ok () ∧
        IsPlaceable (opened s.disk env.here folder) env.here (archiveAt folder name) ∧
        IsPlaceable (opened s.disk env.here folder) env.here
          ((archiveAt folder name).withEnding ".zip.sha256") :=
    ⟨fun room => ⟨room.made, room.archive, room.digest⟩,
      fun ⟨made, archive, digest⟩ => ⟨made, archive, digest⟩⟩
  rw [writeArchive_eq, room, opened, ← archiveAt]
  constructor
  · rintro ⟨p, archive, t, ran⟩
    obtain ⟨⟨⟩, u, made, files⟩ := run_bind_eq_ok.mp ran
    obtain ⟨⟨⟩, v, archived, rest⟩ := run_bind_eq_ok.mp files
    obtain ⟨⟨⟩, v', ended, rest'⟩ := run_bind_eq_ok.mp rest
    obtain ⟨⟨⟩, w, digested, -⟩ := run_bind_eq_ok.mp rest'
    rw [run_makeFolders] at made
    obtain ⟨made, rfl⟩ := Prod.mk.inj made
    rw [run_ofExcept] at ended
    obtain ⟨outcome, rfl⟩ := Prod.mk.inj ended
    obtain ⟨placeable, -, same⟩ := run_putFile_eq_ok archived
    obtain ⟨placeable', -, -⟩ := run_putFile_eq_ok digested
    refine ⟨⟨?_, placeable, (same _).mp placeable'⟩, outcome⟩
    cases first : (s.disk.makeFolders env.here folder.anchor folder.names.reverse).1 with
    | ok _ => rfl
    | error error => exact absurd (first ▸ made) (by simp [Except.mapError])
  · rintro ⟨⟨made, archive, digest⟩, outcome⟩
    rcases run_putFile (archiveAt folder name) (Archive.bytes ⟨(members b.sorted).1⟩) env
      { s with disk := (s.disk.makeFolders env.here folder.anchor folder.names.reverse).2 } with
      ⟨-, u, puts, -, same⟩ | ⟨lost, -⟩
    · rcases run_putFile ((archiveAt folder name).withEnding ".zip.sha256")
        (digestBytes ⟨(members b.sorted).1⟩) env u with ⟨-, v, puts', -, -⟩ | ⟨lost, -⟩
      · refine ⟨archiveAt folder name, ⟨(members b.sorted).1⟩, v, ?_⟩
        rw [run_bind, run_makeFolders, made]
        dsimp only [Except.mapError]
        rw [run_bind, puts]
        dsimp only
        rw [run_bind, run_ofExcept, outcome]
        dsimp only
        rw [run_bind, puts']
        rfl
      · exact absurd ((same _).mpr digest) lost
    · exact absurd archive lost

/-- What was written to the end is an archive of the bundle, and its digest beside it. -/
theorem IsPackable.isArchived (packable : IsPackable b)
    (ran : (writeArchive folder b name).run env s = (.ok (p, archive), t)) :
    p = archiveAt folder name ∧ IsArchived t.disk env.here p (recordsOf b) := by
  have named := packable.members_eq_ok_iff.mp (writeArchive_eq_ok_iff.mp ⟨_, _, _, ran⟩).2
  have made := members_eq (packable.isArchivable_iff.mpr named)
  have becomes := forall₂_members made
  rw [writeArchive_eq, ← archiveAt, made] at ran
  obtain ⟨⟨⟩, u, -, files⟩ := run_bind_eq_ok.mp ran
  obtain ⟨⟨⟩, v, archived, rest⟩ := run_bind_eq_ok.mp files
  obtain ⟨⟨⟩, v', ended, rest'⟩ := run_bind_eq_ok.mp rest
  obtain ⟨⟨⟩, w, digested, done⟩ := run_bind_eq_ok.mp rest'
  rw [run_ofExcept] at ended
  obtain ⟨-, rfl⟩ := Prod.mk.inj ended
  rw [run_pure] at done
  obtain ⟨given, rfl⟩ := Prod.mk.inj done
  obtain ⟨rfl, rfl⟩ := Prod.mk.inj (Except.ok.inj given)
  obtain ⟨placeable, written, same⟩ := run_putFile_eq_ok archived
  obtain ⟨placeable', written', same'⟩ := run_putFile_eq_ok digested
  have beside := resolve_digest_ne env.here folder (archiveName name)
  refine ⟨rfl, (archiveOf b).bytes, Sha256.hexDigest (archiveOf b).bytes, ?_,
    Archive.records?_bytes (named_of_becomes becomes), ?_, fun spelled spells => ?_⟩
  · refine fileAt_eq_some.mpr ⟨_, ((same' _).mpr ((same _).mpr placeable)).located, ?_⟩
    rw [written', archiveAt, if_neg beside.symm, written, archiveAt, if_pos rfl]
    rfl
  · rw [fileAt_eq_some.mpr ⟨_, ((same' _).mpr placeable').located, by rw [written', if_pos rfl]⟩,
      Option.map_some, Utf8.decode_encode (encode_hexDigest _)]
    rfl
  · rw [Digest.isExpected, Digest.normalize_of_spelling spells, Sha256.lower_hexDigest,
      decide_eq_true_eq]

/-- What two bundles are packed into are the same records exactly if the bundles are the same mapping,
whatever the order of their entries, the folder, the disk and the time. The records show the mapping in
order, and lie on the disk, with a digest that fits them, whenever an archive was written; which it is
exactly if there is room and the names can be written. -/
theorem writeArchive_canonical (packable : IsPackable b) (packable' : IsPackable b') :
    ∃ records records', IsCanonical b records ∧ IsCanonical b' records' ∧
      (records = records' ↔ ∀ key, Entries.find? key b = Entries.find? key b') ∧
      ∀ packed ∈ [(b, records), (b', records')], ∀ folder name env s,
        ((∃ p archive t, (writeArchive folder packed.1 name).run env s = (.ok (p, archive), t)) ↔
          HasRoom s.disk env.here folder name ∧ HasShortNames packed.1) ∧
        ∀ p archive t, (writeArchive folder packed.1 name).run env s = (.ok (p, archive), t) →
          p = archiveAt folder name ∧ IsArchived t.disk env.here p packed.2 := by
  have canonical := packable.isCanonical_recordsOf
  have canonical' := packable'.isCanonical_recordsOf
  refine ⟨_, _, canonical, canonical', canonical.eq_iff canonical', ?_⟩
  have each {b : Bundle} (packable : IsPackable b) (folder : Path) (name : Option Text) (env : Env)
      (s : State) :
      ((∃ p archive t, (writeArchive folder b name).run env s = (.ok (p, archive), t)) ↔
        HasRoom s.disk env.here folder name ∧ HasShortNames b) ∧
      ∀ p archive t, (writeArchive folder b name).run env s = (.ok (p, archive), t) →
        p = archiveAt folder name ∧ IsArchived t.disk env.here p (recordsOf b) := by
    rw [writeArchive_eq_ok_iff, packable.members_eq_ok_iff]
    exact ⟨Iff.rfl, fun _ _ _ ran => packable.isArchived ran⟩
  simp only [List.forall_mem_cons]
  exact ⟨each packable, each packable', List.forall_mem_nil _⟩

/-- Two entries are packed into the same records in either order. -/
theorem writeArchive_canonical_reversed :
    ∃ records, IsCanonical [("a.txt", "1"), ("b", "2")] records ∧
      ∀ b ∈ ([[("a.txt", "1"), ("b", "2")], [("b", "2"), ("a.txt", "1")]] : List Bundle),
        ∃ p archive t,
        (writeArchive ⟨.here, []⟩ b (some "b")).run Env.sample State.empty = (.ok (p, archive), t) ∧
          IsArchived t.disk Env.sample.here p records := by
  have packable : IsPackable [("a.txt", "1"), ("b", "2")] := ⟨by decide, by decide, by decide⟩
  have packable' : IsPackable [("b", "2"), ("a.txt", "1")] := ⟨by decide, by decide, by decide⟩
  have room : HasRoom State.empty.disk Env.sample.here ⟨.here, []⟩ (some "b") :=
    ⟨by decide, ⟨by decide, by decide⟩, ⟨by decide, by decide⟩⟩
  obtain ⟨records, records', canonical, -, same, written⟩ :=
    writeArchive_canonical packable packable'
  obtain rfl : records = records' := same.mpr fun key => by
    simp only [Entries.find?]
    split_ifs with first second
    · exact absurd (first.trans second.symm) (by decide)
    all_goals rfl
  simp only [List.forall_mem_cons] at written ⊢
  obtain ⟨first, second, -⟩ := written
  refine ⟨records, canonical, ?_, ?_, List.forall_mem_nil _⟩
  · obtain ⟨writes, lies⟩ := first ⟨.here, []⟩ (some "b") Env.sample State.empty
    obtain ⟨p, archive, t, ran⟩ := writes.mpr ⟨room, by decide⟩
    exact ⟨p, archive, t, ran, (lies _ _ _ ran).2⟩
  · obtain ⟨writes, lies⟩ := second ⟨.here, []⟩ (some "b") Env.sample State.empty
    obtain ⟨p, archive, t, ran⟩ := writes.mpr ⟨room, by decide⟩
    exact ⟨p, archive, t, ran, (lies _ _ _ ran).2⟩

end Grimoire.Bundle
