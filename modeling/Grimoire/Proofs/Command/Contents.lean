import Grimoire.Proofs.Archive.Reading
import Grimoire.Proofs.Command.Effect
import Grimoire.Proofs.Digest.Input

/-!
# One bundle in three forms

A spell is generated as a folder and as an archive, and the digest of its bundle is printed. What can be
read back from the folder and from the archive are the bytes of the texts of the bundle, and the digest
is that of each bundle with these bytes (`Command.generate_agrees`).
-/

namespace Grimoire

open Disk

/-! ## Bytes by name -/

/-- Whether contents by name are the bytes of the texts of a bundle. -/
def Bundle.Encodes (b : Bundle) (contents : Entries Bytes) : Prop :=
  ∀ name, (Entries.find? name b).map Utf8.encode = (Entries.find? name contents).map some

/-- Whether the files in a folder are those with some contents by name. -/
structure Disk.FolderHolds (d : Disk) (r : Route) (contents : Entries Bytes) : Prop where
  folder : d.find? r = some .folder
  files : ∀ q bytes, d.find? (r ++ q) = some (.file bytes) ↔
    ∃ name, q = [Name.ofText name] ∧ Entries.find? name contents = some bytes

/-- Whether a file is an archive whose members are those with some contents by name. -/
def Disk.ArchiveHolds (d : Disk) (r : Route) (contents : Entries Bytes) : Prop :=
  ∃ bytes members, d.find? r = some (.file bytes) ∧ Archive.read? bytes = some members ∧
    (members.map Member.name).Nodup ∧
    ∀ m, m ∈ members ↔ Entries.find? m.name contents = some m.content

namespace Bundle

variable {b b' : Bundle} {contents : Entries Bytes} {d : Disk} {r : Route}

/-- The contents by name of a bundle whose texts can be encoded. -/
def contentsOf (b : Bundle) : Entries Bytes := b.map fun e => (e.1, (Utf8.encode e.2).getD [])

theorem find?_contentsOf (name : Text) (b : Bundle) : Entries.find? name (contentsOf b)
    = (Entries.find? name b).map fun t => (Utf8.encode t).getD [] := by
  induction b with
  | nil => rfl
  | cons e b ih =>
    obtain ⟨k, t⟩ := e
    rw [contentsOf, List.map_cons, Entries.find?, Entries.find?]
    split
    · rfl
    · exact ih

theorem encodes_contentsOf (encodable : ∀ e ∈ b, e.2.isEncodable = true) :
    b.Encodes (contentsOf b) := by
  intro name
  rw [find?_contentsOf]
  cases found : Entries.find? name b with
  | none => rfl
  | some t =>
    obtain ⟨bytes, encoded⟩ := Option.isSome_iff_exists.mp
      ((Utf8.isSome_encode t).trans (encodable _ (Entries.mem_of_find? found)))
    simp [encoded]

theorem Encodes.find?_eq_some (encodes : b.Encodes contents) {name t : Text} :
    Entries.find? name b = some t ↔
      ∃ bytes, Entries.find? name contents = some bytes ∧ Utf8.encode t = some bytes := by
  have both := encodes name
  constructor
  · intro found
    rw [found, Option.map_some, eq_comm, Option.map_eq_some_iff] at both
    obtain ⟨bytes, content, encoded⟩ := both
    exact ⟨bytes, content, encoded.symm⟩
  · rintro ⟨bytes, content, encoded⟩
    rw [content, Option.map_some, Option.map_eq_some_iff] at both
    obtain ⟨u, found, encoded'⟩ := both
    rw [found, Utf8.encode_inj encoded' encoded]

/-- What has the same bytes is the same. -/
theorem find?_eq_of_encodes (first : b.Encodes contents) (second : b'.Encodes contents)
    (name : Text) : Entries.find? name b = Entries.find? name b' :=
  Option.ext fun t => by rw [first.find?_eq_some, second.find?_eq_some]

theorem digest_eq_of_encodes (distinct : b.keys.Nodup) (distinct' : b'.keys.Nodup)
    (first : b.Encodes contents) (second : b'.Encodes contents) : b.digest? = b'.digest? := by
  have same := (Entries.sorted_eq_iff distinct distinct').mpr (find?_eq_of_encodes first second)
  rw [digest?, digest?, digestInput?, digestInput?, same]

theorem exists_digest? (encodable : ∀ e ∈ b, e.1.isEncodable = true ∧ e.2.isEncodable = true) :
    ∃ input, b.digest? = some (Sha256.hexDigest input) := by
  obtain ⟨input, taken⟩ : ∃ input, b.digestInput? = some input :=
    exists_entriesInput? fun e member => encodable e ((List.mergeSort_perm _ _).mem_iff.mp member)
  exact ⟨input, by rw [digest?, taken, Option.map_some]⟩

/-- A folder that is filled with a bundle holds the bytes of its texts. -/
theorem Fills.holds (fills : Fills b r d) (distinct : b.keys.Nodup) :
    d.FolderHolds r (contentsOf b) := by
  refine ⟨fills.folder, fun q bytes => ?_⟩
  constructor
  · intro found
    have root : q ≠ [] := by
      rintro rfl
      rw [List.append_nil, fills.folder] at found
      exact absurd found (by simp)
    obtain ⟨name, member, rfl⟩ := fills.only q _ root found
    obtain ⟨⟨key, t⟩, inside, rfl⟩ := List.mem_map.mp member
    obtain ⟨bytes', encoded, found'⟩ := fills.files _ inside
    obtain rfl : bytes' = bytes := by simpa using found'.symm.trans found
    refine ⟨key, rfl, ?_⟩
    rw [find?_contentsOf, (Entries.mem_iff_find? distinct).mp inside, Option.map_some, encoded,
      Option.getD_some]
  · rintro ⟨name, rfl, found⟩
    rw [find?_contentsOf, Option.map_eq_some_iff] at found
    obtain ⟨t, found, rfl⟩ := found
    obtain ⟨bytes, encoded, file⟩ := fills.files _ (Entries.mem_of_find? found)
    rw [← fileOf, file, encoded, Option.getD_some]

/-- An archive of a bundle holds the bytes of its texts. -/
theorem archiveHolds_archiveOf (distinct : b.keys.Nodup)
    (named : ∀ e ∈ b, Archive.IsNamed (memberOf e))
    (found : d.find? r = some (.file (archiveOf b).bytes)) : d.ArchiveHolds r (contentsOf b) := by
  have perm : b.sorted.Perm b := List.mergeSort_perm _ _
  refine ⟨_, _, found, Archive.read?_bytes fun m member => ?_, ?_, fun m => ?_⟩
  · obtain ⟨e, inside, rfl⟩ := List.mem_map.mp member
    exact named e (perm.mem_iff.mp inside)
  · rw [archiveOf, List.map_map]
    exact ((perm.map Prod.fst).nodup_iff).mpr distinct
  · rw [find?_contentsOf, archiveOf, Option.map_eq_some_iff, List.mem_map]
    constructor
    · rintro ⟨⟨key, t⟩, inside, rfl⟩
      exact ⟨t, (Entries.mem_iff_find? distinct).mp (perm.mem_iff.mp inside), rfl⟩
    · rintro ⟨t, found, same⟩
      refine ⟨(m.name, t), perm.mem_iff.mpr (Entries.mem_of_find? found), ?_⟩
      rw [memberOf, same]

theorem find?_opened_file {here q : Route} {folder : Path} {bytes : Bytes} :
    (opened d here folder).find? q = some (.file bytes) ↔ d.find? q = some (.file bytes) := by
  have made := madeAt_opened d here folder q
  constructor
  · rcases made with same | ⟨-, new, -⟩
    · exact fun found => same.symm.trans found
    · exact fun found => absurd (new.symm.trans found) (by simp)
  · exact made.kept

end Bundle

namespace Command

open Act Grimoire.Bundle

variable {env : Env} {s t : State} {source out : Text} {force : Bool} {new : Spell} {here : Route}
  {folder : Path} {name : Text} {bundle : Bundle} {c e : Disk}

/-- What is written beside the folder of a bundle leaves the files in the folder as they are. -/
theorem holds_of_archives (distinct : bundle.keys.Nodup)
    (filled : Fills bundle (fileOf (resolve here folder) name) c)
    (archives : Archives here folder name bundle true c true e) :
    e.FolderHolds (fileOf (resolve here folder) name) (contentsOf bundle) ∧
      e.find? (fileOf (resolve here folder) (name ++ ".zip"))
        = some (.file (archiveOf bundle).bytes) := by
  cases archives with
  | unasked unasked => exact absurd unasked (by simp)
  | archived asked can canDigest left =>
    rw [resolve_archivePath, resolve_digestPath] at left
    have beside (q : Route) {ending : Text} (some : Name.ofText ending ≠ []) :
        fileOf (resolve here folder) name ++ q ≠ fileOf (resolve here folder) (name ++ ending) := by
      rw [fileOf, fileOf, List.append_assoc]
      intro same
      have heads := congrArg List.head? (List.append_cancel_left same)
      exact some (by simpa [Name.ofText_append] using heads)
    have inside (q : Route) : e.find? (fileOf (resolve here folder) name ++ q)
        = (opened c here folder).find? (fileOf (resolve here folder) name ++ q) := by
      rw [left, if_neg (beside q (by decide)), if_neg (beside q (by decide))]
    have holds := filled.holds distinct
    refine ⟨⟨?_, fun q bytes => ?_⟩, ?_⟩
    · have itself := inside []
      rw [List.append_nil] at itself
      exact itself.trans ((madeAt_opened c here folder _).kept holds.folder)
    · rw [inside, find?_opened_file, holds.files]
    · rw [left, if_neg (fileOf_append_ne _ _ (by decide)), if_pos rfl]

theorem isNamed_ofSpell (new : Spell) : ∀ e ∈ ofSpell new, Archive.IsNamed (memberOf e) := by
  have names : ∀ name ∈ (ofSpell new).keys,
      name.isEncodable = true ∧ (Archive.nameBytes name).length < 65536 := by
    rw [names_ofSpell]
    decide
  exact fun e member => names e.1 (List.mem_map_of_mem member)

/-! ## What is printed -/

/-- Whether an act prints nothing. -/
def IsSilent {α : Type} (act : Act α) : Prop := ∀ env s, (act.run env s).2.output = s.output

theorem IsSilent.bind {α β : Type} {act : Act α} {next : α → Act β} (first : IsSilent act)
    (rest : ∀ a, IsSilent (next a)) : IsSilent (act >>= next) := by
  intro env s
  have kept := first env s
  rw [run_bind]
  rcases outcome : act.run env s with ⟨_ | a, t⟩ <;> rw [outcome] at kept
  · exact kept
  · exact (rest a env t).trans kept

theorem isSilent_ofExcept {α : Type} (x : Except Failure α) : IsSilent (Act.ofExcept x) := fun env s => by
  rw [run_ofExcept]

theorem isSilent_loadSpell (source : Text) : IsSilent (loadSpell source) := by
  have text : IsSilent (Source.readText source) := by
    unfold Source.readText
    split
    · exact IsSilent.bind (fun _ _ => rfl) fun _ => isSilent_ofExcept _
    · split
      · exact fun _ _ => rfl
      · refine IsSilent.bind (fun _ _ => rfl) fun env => ?_
        split
        · exact isSilent_ofExcept _
        · exact IsSilent.bind (fun _ _ => rfl) fun _ => isSilent_ofExcept _
  have read : IsSilent (Source.read source) :=
    text.bind fun _ => IsSilent.bind (fun _ _ => rfl) fun _ => isSilent_ofExcept _
  refine read.bind fun candidate => ?_
  unfold Book.check
  split
  · exact fun _ _ => rfl
  · exact IsSilent.bind (fun _ _ => rfl) fun _ _ _ => rfl

/-- The digest of the bundle of a spell is printed, if the spell and its bundle can be written. -/
theorem run_runDigest {bytes : Bytes} (writable : new.isWritable = true)
    (digests : (ofSpell new).digest? = some (Sha256.hexDigest bytes))
    (loads : (loadSpell source).run env s = (.ok new, t)) :
    ∃ u, (runDigest source none).run env s = (.ok 0, u) ∧
      u.output = s.output ++ Sha256.hexDigest bytes ++ "\n" := by
  have silent := isSilent_loadSpell source env s
  rw [loads] at silent
  have digest : digestOf (ofSpell new) = .ok (Sha256.hexDigest bytes) := by
    rw [digestOf, Bundle.digest, digests]
  have generates : (Bundle.generate new).run env t = (.ok (ofSpell new), { t with
      log := t.log ++ [⟨env.time, .debug, Part.generator.name, "generating bundle",
        .ofJson (.obj [("spell", .str new.name), ("action", .str new.action.kind)]), none⟩] }) := by
    rw [Bundle.generate, run_bind, run_note, writable]
    rfl
  rw [runDigest, orReport_of_ok loads, run_bind, generates]
  dsimp only [Option.bind_none]
  rw [digest, run_bind, run_ofExcept]
  dsimp only
  rw [printLine, run_bind, run_bind, run_print (isEncodable_hexDigest bytes)]
  dsimp only
  rw [run_print (by decide)]
  exact ⟨_, rfl, by rw [← silent]⟩

/-- Whether the bundle of a spell lies in a folder, as files and as an archive, and has a digest. -/
structure IsDelivered (new : Spell) (contents : Entries Bytes) (digest : Text) (r : Route)
    (d : Disk) : Prop where
  encodes : (ofSpell new).Encodes contents
  files : d.FolderHolds (fileOf r new.name) contents
  archive : d.ArchiveHolds (fileOf r (new.name ++ ".zip")) contents
  digest : ∀ b : Bundle, b.keys.Nodup → b.Encodes contents → b.digest? = some digest

/-- If a spell is generated together with its archive, then the files in the folder and the members of
the archive are the texts of its bundle in UTF-8, and the digest of each bundle with these bytes is what
is printed as the digest of the same spell. -/
theorem generate_agrees (tree : s.disk.IsTree) (plain : IsPlain env.here)
    (generates : (runGenerate source out true force).run env s = (.ok 0, t)) :
    ∃ new contents digest, (∃ u, (loadSpell source).run env s = (.ok new, u)) ∧
      IsDelivered new contents digest (resolve env.here (Path.ofText out)) t.disk ∧
      ∀ env' u v, (loadSpell source).run env' u = (.ok new, v) →
        ∃ w, (runDigest source none).run env' u = (.ok 0, w) ∧
          w.output = u.output ++ digest ++ "\n" := by
  rw [runGenerate_eq] at generates
  rcases loads : (loadSpell source).run env s with ⟨failure | new, u⟩
  · have code := (run_orReport_of_error (generateSpell out true force) loads).1
    rw [generates] at code
    exact absurd rfl code
  rw [orReport_of_ok loads] at generates
  have valid := isValid_of_loadSpell loads
  have same : u.disk = s.disk := by
    have passive := (isPassive_loadSpell source env s).1
    rwa [loads] at passive
  obtain ⟨done, leaves, code⟩ :=
    run_generateSpell (s := u) valid (same.symm ▸ tree) plain out true force
  rw [generates] at leaves code
  obtain ⟨rfl, -⟩ := code.mp rfl
  cases leaves with
  | placed can canPlace placed archives =>
    have encodable : ∀ e ∈ ofSpell new, e.2.isEncodable = true := fun e member =>
      (canPlace.stage.put.fits e member).encodable
    have named := isNamed_ofSpell new
    have both : ∀ e ∈ ofSpell new, e.1.isEncodable = true ∧ e.2.isEncodable = true :=
      fun e member => ⟨(named e member).1, encodable e member⟩
    obtain ⟨input, digests⟩ := exists_digest? both
    have encodes := encodes_contentsOf encodable
    obtain ⟨folder, archive⟩ := holds_of_archives (distinct_ofSpell new) placed.filled archives
    refine ⟨new, contentsOf (ofSpell new), Sha256.hexDigest input, ⟨u, rfl⟩, ⟨encodes, folder,
      archiveHolds_archiveOf (distinct_ofSpell new) named archive, fun b distinct encodes' => ?_⟩,
      fun env' u v loads => run_runDigest can.writable digests loads⟩
    rw [digest_eq_of_encodes distinct (distinct_ofSpell new) encodes' encodes, digests]

/-- The sample spell, which is to be generated together with its archive. -/
def Job.sample : Job Env.sample.here (Path.ofText "dist") :=
  ⟨Spell.sample.normal, true, false, Env.sample.marks⟩

theorem Job.finishes_sample : Job.sample.Finishes
    ((documentState (Json.pretty Spell.sample.wire)).disk.grounded Env.sample.here
      (resolve Env.sample.here (Path.ofText "dist"))) := by
  have isOpen : ((documentState (Json.pretty Spell.sample.wire)).disk.grounded Env.sample.here
      (resolve Env.sample.here (Path.ofText "dist"))).IsOpen
        (resolve Env.sample.here (Path.ofText "dist")) := isOpen_grounded (by decide) (by decide)
  have places := places_of_free (j := Job.sample) (Name.ofText ".say-hello-00000000")
    Spell.isChecked_sample.normal.rules.1 (by decide) (by decide) (by decide +kernel)
    ((reaches_concat isOpen.way isOpen.folder).mpr (by decide))
    ((reaches_concat isOpen.way isOpen.folder).mpr (by decide)) (by rw [names_ofSpell]; decide)
  exact ⟨places, fun asked => ⟨⟨⟨places, asked⟩, by decide, by decide, by decide⟩, by decide,
    by decide⟩⟩

theorem loadSpell_sample : ((loadSpell "a.json").run Env.sample
    (documentState (Json.pretty Spell.sample.wire))).1 = .ok Spell.sample.normal := by
  decide +kernel

theorem runGenerate_sample : ((runGenerate "a.json" "dist" true false).run Env.sample
    (documentState (Json.pretty Spell.sample.wire))).1 = .ok 0 := by
  have loading := loadSpell_sample
  have disk := (isPassive_loadSpell "a.json" Env.sample
    (documentState (Json.pretty Spell.sample.wire))).1
  rcases loads : (loadSpell "a.json").run Env.sample
    (documentState (Json.pretty Spell.sample.wire)) with ⟨outcome, u⟩
  rw [loads] at loading disk
  obtain rfl : outcome = .ok Spell.sample.normal := loading
  have valid := isValid_of_loadSpell loads
  rw [runGenerate_eq, orReport_of_ok loads]
  have plain : IsPlain Env.sample.here := fun name member => absurd member (by simp [Env.sample])
  obtain ⟨done, leaves, code⟩ := run_generateSpell valid
    (disk.symm ▸ isTree_documentState _ : u.disk.IsTree) plain "dist" true false
  rw [disk] at leaves
  have begins : CanBegin Env.sample.marks Spell.sample.normal Env.sample.here (Path.ofText "dist") :=
    ⟨(run_sayWarnings_eq_ok _ Env.sample State.empty).mp (by decide +kernel), by decide,
      by decide, by decide⟩
  have does := Job.does_of_leaves (j := Job.sample) (fun _ => Job.isClear_of_down (by decide))
    begins (by decide) leaves
  exact code.mpr ⟨does.done.mpr Job.finishes_sample,
    isPrintable_generatedTable _ valid (by decide) (by decide) true⟩

/-- The sample spell is generated together with its archive into a folder that is missing. -/
theorem generate_agrees_sample :
    (documentState (Json.pretty Spell.sample.wire)).disk.IsTree ∧ IsPlain Env.sample.here ∧
    ∃ t, (runGenerate "a.json" "dist" true false).run Env.sample
        (documentState (Json.pretty Spell.sample.wire)) = (.ok 0, t) ∧
      ∃ new contents digest,
        (∃ u, (loadSpell "a.json").run Env.sample
          (documentState (Json.pretty Spell.sample.wire)) = (.ok new, u)) ∧
        IsDelivered new contents digest [Name.ofText "dist"] t.disk ∧
        ∀ env' u v, (loadSpell "a.json").run env' u = (.ok new, v) →
          ∃ w, (runDigest "a.json" none).run env' u = (.ok 0, w) ∧
            w.output = u.output ++ digest ++ "\n" := by
  have tree := isTree_documentState (Json.pretty Spell.sample.wire)
  have plain : IsPlain Env.sample.here := fun name member => absurd member (by simp [Env.sample])
  exact ⟨tree, plain, _, Prod.ext runGenerate_sample rfl,
    generate_agrees tree plain (Prod.ext runGenerate_sample rfl)⟩

end Command

end Grimoire
