import Grimoire.Bundle.Folder
import Grimoire.Proofs.Act
import Grimoire.Proofs.Disk.Passing
import Grimoire.Proofs.Entries
import Grimoire.Proofs.Text.Lines
import Grimoire.Proofs.Text.Utf8

/-!
# Filling a folder with a bundle

Each entry of a bundle is to become a file of its own in a folder. An entry either fits
(`Bundle.Fits`), and then its file is what changes, or the writing fails, and at most what lies in
the folder has changed (`Bundle.run_writeEntry`). So a folder that was empty holds the files of a
bundle and nothing else exactly if every entry fits (`Bundle.run_writeEntries`). Entries whose names are
the same on a disk have one file, with the content of the last one (`Bundle.spelled`).
-/

namespace Grimoire.Bundle

open Act Disk

variable {s : State} {d e : Disk} {done rest bundle : Bundle} {name content : Text}
  {bytes : Bytes} {beside : Route} {p : Path}

/-! ## Entries as files -/

/-- A name that is its own last name has no slash in it. -/
theorem slash_notMem_of_isPlainName (plain : Path.isPlainName name = true) :
    CodePoint.scalar '/' ∉ name := by
  have last : (Path.namesOf name).getLast?.getD [] = name := of_decide_eq_true plain
  cases names : (Path.namesOf name).getLast? with
  | none =>
    rw [names] at last
    simp [← last]
  | some piece =>
    rw [names] at last
    have member := List.mem_of_getLast? names
    rw [Path.namesOf, List.mem_filter] at member
    exact (show piece = name from last) ▸ Text.not_mem_of_mem_splitOn '/' _ piece member.1

theorem isPlainName_of_entryPath (h : entryPath (pathOf beside) name = .ok p) :
    Path.isPlainName name = true := by
  unfold entryPath at h
  split at h
  · next plain => exact plain
  · exact absurd h (by simp)

/-- The path of a name in a folder. -/
def child (folder : Path) (name : Text) : Path := ⟨folder.anchor, folder.names ++ [name]⟩

theorem below_eq_child (slash : CodePoint.scalar '/' ∉ name) (nonempty : name ≠ [])
    (dot : name ≠ ".") (folder : Path) : folder.below name = child folder name := by
  have anchor : Path.anchorOf name = .here := by
    obtain ⟨c, rest, rfl⟩ := List.exists_cons_of_ne_nil nonempty
    have other : c ≠ .scalar '/' := fun same => slash (same ▸ List.mem_cons_self)
    rw [Path.anchorOf, List.takeWhile_cons_of_neg (by simpa using other)]
    rfl
  rw [Path.below, anchor, Path.namesOf_eq_singleton slash nonempty dot]
  rfl

/-- A name that is taken for an entry means a place of its own in the folder, unless it is empty. -/
theorem entryPath_eq_ok (h : entryPath (pathOf beside) name = .ok p) :
    name = [] ∧ p = pathOf beside ∨ name ≠ [] ∧ p = child (pathOf beside) name := by
  unfold entryPath at h
  split at h
  · next plain =>
    obtain rfl := Except.ok.inj h
    by_cases empty : name = []
    · subst empty
      exact .inl ⟨rfl, by simp [Path.below, Path.anchorOf, Path.namesOf, Text.splitOn, pathOf]⟩
    · have dot : name ≠ "." := by
        rintro rfl
        exact absurd plain (by decide)
      have slash := slash_notMem_of_isPlainName plain
      exact .inr ⟨empty, below_eq_child slash empty dot (pathOf beside)⟩
  · exact absurd h (by simp)

/-- Whether a file in a folder can have a name. -/
structure IsEntryName (folder : Route) (name : Text) : Prop where
  plain : Path.isPlainName name = true
  nonempty : name ≠ []
  down : name ≠ ".."
  nameable : Name.isNameable name = true
  nul : CodePoint.scalar '\x00' ∉ name
  brief : nameSize name ≤ 255
  short : nameSize (child (pathOf folder) name).text ≤ 4095

instance (folder : Route) (name : Text) : Decidable (IsEntryName folder name) :=
  decidable_of_iff (Path.isPlainName name = true ∧ name ≠ [] ∧ name ≠ ".." ∧
      Name.isNameable name = true ∧ .scalar '\x00' ∉ name ∧ nameSize name ≤ 255 ∧
      nameSize (child (pathOf folder) name).text ≤ 4095)
    ⟨fun ⟨plain, nonempty, down, nameable, nul, brief, short⟩ =>
        ⟨plain, nonempty, down, nameable, nul, brief, short⟩,
      fun ⟨plain, nonempty, down, nameable, nul, brief, short⟩ =>
        ⟨plain, nonempty, down, nameable, nul, brief, short⟩⟩

/-- Whether an entry can be written as a file into a folder. -/
structure Fits (folder : Route) (entry : Text × Text) : Prop where
  name : IsEntryName folder entry.1
  encodable : entry.2.isEncodable = true

/-- Whether a folder is there and reached. -/
structure IsOpenFolder (r : Route) (d : Disk) : Prop where
  root : r ≠ []
  down : ∀ name ∈ r, name ≠ Name.up
  way : d.Reaches r
  folder : d.find? r = some .folder

/-- Nothing that happens below a folder takes it away. -/
theorem IsOpenFolder.congr (isOpen : IsOpenFolder beside d)
    (same : ∀ q, q <+: beside → e.find? q = d.find? q) : IsOpenFolder beside e :=
  ⟨isOpen.root, isOpen.down, isOpen.way.mono fun q above _ folder => (same q above).trans folder,
    (same beside List.prefix_rfl).trans isOpen.folder⟩

/-- The route of the file of an entry. -/
def fileOf (folder : Route) (name : Text) : Route := folder ++ [Name.ofText name]

theorem names_child (folder : Path) (name : Text) :
    names (child folder name) = names folder ++ [Name.ofText name] := by
  simp [names, child]

theorem fileOf_ne_nil (folder : Route) (name : Text) : fileOf folder name ≠ [] := by simp [fileOf]

theorem refusal?_child (isOpen : IsOpenFolder beside d) :
    refusal? (child (pathOf beside) name) = none ↔
      Name.isNameable name = true ∧ CodePoint.scalar '\x00' ∉ name := by
  have way := refusal?_eq_none_iff.mp (refusal?_pathOf_eq_none_iff.mpr isOpen.way.nul)
  rw [refusal?_eq_none_iff, child, List.all_append, List.any_append, way.1, way.2]
  simp

/-- A file in a folder that is there is found if its name can be asked for. -/
theorem locate_child (isOpen : IsOpenFolder beside d) (here : Route) {r : Route} :
    d.locate here (child (pathOf beside) name) = .ok r ↔
      (Name.isNameable name = true ∧ CodePoint.scalar '\x00' ∉ name) ∧
      nameSize (child (pathOf beside) name).text ≤ 4095 ∧
      (Name.ofText name = Name.up ∨ nameSize name ≤ 255) ∧ r = follow beside (Name.ofText name) := by
  have start : (if (child (pathOf beside) name).anchor = .here then here else []) = [] :=
    if_neg (by simp [child, pathOf])
  have way : walk d [] beside = .ok beside :=
    (walk_eq_ok isOpen.down).mpr ⟨isOpen.way.brief, isOpen.way.above, rfl⟩
  rw [locate_eq_ok, refusal?_child isOpen, start, names_child, names_pathOf, walk_concat_eq_ok]
  simp only [way, Except.ok.injEq, exists_eq_left', isOpen.folder, true_and]
  rfl

/-- What is written under the name of an entry gets into a file in the folder, if there can be one.
-/
theorem putContent_entry (isOpen : IsOpenFolder beside d)
    (kind : d.find? (fileOf beside name) ≠ some .folder)
    (path : entryPath (pathOf beside) name = .ok p) (here : Route) (bytes : Bytes) :
    d.putContent here p bytes = .ok e ↔
      IsEntryName beside name ∧ e = d.put (fileOf beside name) (.file bytes) := by
  have plain := isPlainName_of_entryPath path
  rcases entryPath_eq_ok path with ⟨rfl, rfl⟩ | ⟨nonempty, rfl⟩
  · -- An empty name leads to the folder itself, which is no file.
    have located : d.locate here (pathOf beside) = .ok beside :=
      (locate_pathOf isOpen.down).mpr ⟨isOpen.way, rfl⟩
    simp only [putContent, located, isOpen.folder, reduceCtorEq, false_iff]
    exact fun h => h.1.nonempty rfl
  have down (nameable : Name.isNameable name = true) : Name.ofText name = Name.up ↔ name = ".." :=
    Name.ofText_eq_up_iff nameable
  constructor
  · intro h
    unfold putContent at h
    split at h
    · exact absurd h (by simp)
    · next r located =>
      obtain ⟨⟨nameable, nul⟩, short, brief, rfl⟩ := (locate_child isOpen here).mp located
      by_cases up : Name.ofText name = Name.up
      · -- Two dots lead to the folder above, which is no file either.
        have above : d.find? beside.dropLast = some .folder :=
          isOpen.way.above _ (List.dropLast_prefix beside) (dropLast_ne_self isOpen.root)
        rw [follow, if_pos up, above] at h
        exact absurd h (by simp)
      · have end' : follow beside (Name.ofText name) = fileOf beside name := if_neg up
        rw [end'] at h
        split at h
        · exact absurd h (by simp)
        · exact ⟨⟨plain, nonempty, fun dots => up ((down nameable).mpr dots), nameable, nul,
            brief.resolve_left up, short⟩, (Except.ok.inj h).symm⟩
  · rintro ⟨named, rfl⟩
    have up : Name.ofText name ≠ Name.up := fun dots => named.down ((down named.nameable).mp dots)
    have located : d.locate here (child (pathOf beside) name) = .ok (fileOf beside name) :=
      (locate_child isOpen here).mpr
        ⟨⟨named.nameable, named.nul⟩, named.short, .inr named.brief, (if_neg up).symm⟩
    simp only [putContent, located]

/-- The file of an entry gets new content, if there can be one, and nothing is changed otherwise. -/
theorem run_putEntry (isOpen : IsOpenFolder beside s.disk)
    (kind : s.disk.find? (fileOf beside name) ≠ some .folder)
    (path : entryPath (pathOf beside) name = .ok p) (bytes : Bytes) (env : Env) :
    (IsEntryName beside name ∧ (change fun disk here => disk.putContent here p bytes).run env s
      = (.ok (), { s with disk := s.disk.put (fileOf beside name) (.file bytes) })) ∨
    (¬IsEntryName beside name ∧ ∃ failure,
      (change fun disk here => disk.putContent here p bytes).run env s = (.error failure, s)) := by
  cases put : s.disk.putContent env.here p bytes with
  | error error =>
    refine .inr ⟨fun named => ?_, _, run_change_of_error put⟩
    have puts := (putContent_entry isOpen kind path env.here bytes).mpr ⟨named, rfl⟩
    exact absurd (put.symm.trans puts) (by simp)
  | ok e =>
    obtain ⟨named, rfl⟩ := (putContent_entry isOpen kind path env.here bytes).mp put
    exact .inl ⟨named, run_change_eq_ok.mpr ⟨_, put, rfl⟩⟩

/-- A folder does not lie below its files. -/
theorem not_prefix_of_fileOf {folder : Route} {name : Text} : ¬fileOf folder name <+: folder :=
  fun above => absurd above.length_le (by simp [fileOf])

/-- The writing of one entry. -/
def writeEntry (folder : Path) (entry : Text × Text) : Act Unit := do
  writeText (← Act.ofExcept (entryPath folder entry.1)) entry.2

/-- An entry that fits is written, and it is the file of the entry that has changed. One that does
not fit changes at most what lies in the folder. -/
theorem run_writeEntry (isOpen : IsOpenFolder beside s.disk)
    (kind : s.disk.find? (fileOf beside name) ≠ some .folder) (content : Text) (env : Env) :
    (Fits beside (name, content) ∧ ∃ bytes t, Utf8.encode content = some bytes ∧
      (writeEntry (pathOf beside) (name, content)).run env s = (.ok (), t) ∧
      ∀ q, t.disk.find? q = if q = fileOf beside name then some (.file bytes)
        else s.disk.find? q) ∨
    (¬Fits beside (name, content) ∧ ∃ failure t,
      (writeEntry (pathOf beside) (name, content)).run env s = (.error failure, t) ∧
      ∀ q, ¬beside <+: q → t.disk.find? q = s.disk.find? q) := by
  have inside (q : Route) (away : q ≠ fileOf beside name) (bytes : Bytes) (d : Disk) :
      (d.put (fileOf beside name) (.file bytes)).find? q = d.find? q := by
    rw [find?_put _ _ _ _ (fileOf_ne_nil _ _), if_neg away]
  have away {q : Route} (outside : ¬beside <+: q) : q ≠ fileOf beside name := by
    rintro rfl
    exact outside (List.prefix_append beside _)
  rw [writeEntry, run_bind, run_ofExcept]
  cases path : entryPath (pathOf beside) name with
  | error failure =>
    refine .inr ⟨fun fits => ?_, failure, s, rfl, fun q _ => rfl⟩
    rw [entryPath, if_pos fits.name.plain] at path
    exact absurd path (by simp)
  | ok p =>
    dsimp only
    rw [writeText, run_bind]
    rcases run_putEntry isOpen kind path [] env with ⟨named, empties⟩ | ⟨unnamed, failure, fails⟩
    · rw [empties]
      dsimp only
      rw [run_bind, Act.encode]
      cases encoded : Utf8.encode content with
      | none =>
        refine .inr ⟨fun fits => ?_, _, _, rfl, fun q outside => inside q (away outside) [] _⟩
        have encodes := (Utf8.isSome_encode content).trans fits.encodable
        exact absurd encodes (by simp [encoded])
      | some bytes =>
        -- The file that is there by now does not keep its folder from being open.
        have isOpen' : IsOpenFolder beside (s.disk.put (fileOf beside name) (.file [])) :=
          isOpen.congr fun q above => inside q (by
            rintro rfl
            exact not_prefix_of_fileOf above) [] _
        have kind' : (s.disk.put (fileOf beside name) (.file [])).find? (fileOf beside name)
            ≠ some .folder := by
          rw [find?_put _ _ _ _ (fileOf_ne_nil _ _), if_pos rfl]
          simp
        have encodable : content.isEncodable = true := by
          rw [← Utf8.isSome_encode, encoded]
          rfl
        obtain ⟨-, puts⟩ := (run_putEntry (s := { s with disk := _ }) isOpen' kind' path bytes
          env).resolve_right fun unnamed => unnamed.1 named
        refine .inl ⟨⟨named, encodable⟩, bytes, _, rfl, puts, fun q => ?_⟩
        rw [find?_put _ _ _ _ (fileOf_ne_nil _ _)]
        split
        · rfl
        · next other => exact inside q other [] s.disk
    · rw [fails]
      exact .inr ⟨fun fits => unnamed fits.name, failure, s, rfl, fun q _ => rfl⟩

/-! ## A folder that holds a bundle -/

/-- A bundle with the names as a disk spells them. Where names are the same on a disk, the last content
counts. -/
def spelled (bundle : Bundle) : Bundle := Entries.mapKeys Name.spelling bundle

/-- Whether a folder holds the files of a bundle, and nothing else lies in it. -/
structure Fills (bundle : Bundle) (r : Route) (d : Disk) : Prop where
  folder : d.find? r = some .folder
  files : ∀ entry ∈ bundle, ∃ bytes, Utf8.encode entry.2 = some bytes ∧
    d.find? (fileOf r entry.1) = some (.file bytes)
  only : ∀ q entry, q ≠ [] → d.find? (r ++ q) = some entry →
    ∃ name ∈ bundle.keys, q = [Name.ofText name]

theorem Fills.congr {r r' : Route} (fills : Fills bundle r d)
    (same : ∀ q, e.find? (r' ++ q) = d.find? (r ++ q)) : Fills bundle r' e := by
  refine ⟨?_, fun entry member => ?_, fun q entry root found => ?_⟩
  · simpa using (same []).trans (by simpa using fills.folder)
  · rw [fileOf, same]
    exact fills.files entry member
  · rw [same] at found
    exact fills.only q entry root found

/-- Where names are distinct on a disk, how they are spelled does not matter. -/
theorem fills_spelled_iff {r : Route} (distinct : (bundle.keys.map Name.ofText).Nodup) :
    Fills bundle.spelled r d ↔ Fills bundle r d := by
  have same : bundle.spelled = bundle.map fun e => (Name.spelling e.1, e.2) := by
    refine (Entries.putAll_eq_append ?_).trans (List.nil_append _)
    rw [List.nil_append, Entries.keys, List.map_map]
    have spellings : (bundle.keys.map Name.ofText).map Name.text
        = bundle.map (Prod.fst ∘ fun e => (Name.spelling e.1, e.2)) := by
      rw [Entries.keys, List.map_map, List.map_map]
      rfl
    rw [← spellings]
    exact distinct.map fun _ _ => Name.text_injective
  rw [same]
  constructor <;> rintro ⟨folder, files, only⟩
  · refine ⟨folder, fun entry member => ?_, fun q entry root found => ?_⟩
    · obtain ⟨bytes, encoded, file⟩ := files _ (List.mem_map_of_mem member)
      rw [fileOf, Name.ofText_spelling] at file
      exact ⟨bytes, encoded, file⟩
    · obtain ⟨name, key, rfl⟩ := only q entry root found
      obtain ⟨m, respelled, rfl⟩ := List.mem_map.mp key
      obtain ⟨old, member, rfl⟩ := List.mem_map.mp respelled
      exact ⟨old.1, List.mem_map_of_mem member, by rw [Name.ofText_spelling]⟩
  · refine ⟨folder, fun entry member => ?_, fun q entry root found => ?_⟩
    · obtain ⟨old, known, rfl⟩ := List.mem_map.mp member
      obtain ⟨bytes, encoded, file⟩ := files old known
      exact ⟨bytes, encoded, by rw [fileOf, Name.ofText_spelling]; exact file⟩
    · obtain ⟨name, key, rfl⟩ := only q entry root found
      obtain ⟨old, member, rfl⟩ := List.mem_map.mp key
      exact ⟨Name.spelling old.1, List.mem_map.mpr ⟨_, List.mem_map_of_mem member, rfl⟩, by
        rw [Name.ofText_spelling]⟩

/-- A folder that has just been made where nothing was holds nothing. -/
theorem fills_nil (root : beside ≠ []) (free : ∀ q, beside <+: q → d.find? q = none) :
    Fills [] beside (d.put beside .folder) := by
  refine ⟨?_, fun entry member => absurd member (by simp), fun q entry nonempty found => ?_⟩
  · rw [find?_put _ _ _ _ root, if_pos rfl]
  · rw [find?_put _ _ _ _ root, if_neg (by simpa using nonempty),
      free _ (List.prefix_append beside q)] at found
    exact absurd found (by simp)

/-- All that lies in a folder that holds a bundle is a file. -/
theorem Fills.noFolder (fills : Fills done.spelled beside d) :
    d.find? (fileOf beside name) ≠ some .folder := by
  intro found
  obtain ⟨key, member, same⟩ := fills.only [Name.ofText name] .folder (by simp) found
  obtain ⟨entry, inside, rfl⟩ := List.mem_map.mp member
  obtain ⟨bytes, -, file⟩ := fills.files entry inside
  rw [fileOf, ← List.singleton_inj.mp same, ← fileOf, found] at file
  exact absurd file (by simp)

/-- A file under one more name is added to the files of a bundle, or takes the place of the one under the
same name. -/
theorem Fills.add (fills : Fills done.spelled beside d) (encoded : Utf8.encode content = some bytes)
    (written : ∀ q, e.find? q = if q = fileOf beside name then some (.file bytes) else d.find? q) :
    Fills (spelled (done ++ [(name, content)])) beside e := by
  have more : spelled (done ++ [(name, content)])
      = Entries.put (Name.spelling name) content done.spelled := Entries.mapKeys_concat ..
  have distinct : (Entries.keys done.spelled).Nodup := Entries.nodup_keys_mapKeys _
  rw [more]
  refine ⟨?_, fun entry member => ?_, fun q entry root found => ?_⟩
  · rw [written, if_neg (by simp [fileOf])]
    exact fills.folder
  · rcases Entries.mem_put_of_nodup distinct member with rfl | ⟨old, other⟩
    · refine ⟨bytes, encoded, ?_⟩
      rw [written, fileOf, Name.ofText_spelling, if_pos (by rw [fileOf])]
    · obtain ⟨bytes', encoded', file⟩ := fills.files entry old
      -- The name is spelled as a disk spells it, so it is the same name only if it is the same text.
      have apart : fileOf beside entry.1 ≠ fileOf beside name := by
        intro same
        have bytes := List.singleton_inj.mp (List.append_cancel_left same)
        obtain ⟨m, -, spelling⟩ := Entries.mem_mapKeys old
        rw [spelling, Name.ofText_spelling, ← Name.spelling_eq_iff, ← spelling] at bytes
        exact other bytes
      exact ⟨bytes', encoded', by rw [written, if_neg apart, file]⟩
  · have known (key : Text) : key ∈ Entries.keys
        (Entries.put (Name.spelling name) content done.spelled) ↔
          key = Name.spelling name ∨ key ∈ Entries.keys done.spelled := by
      rw [Entries.keys_put]
      split
      · next old => exact ⟨.inr, fun h => h.elim (· ▸ old) id⟩
      · rw [List.mem_append, List.mem_singleton, or_comm]
    rw [written] at found
    split at found
    · next same =>
      exact ⟨Name.spelling name, (known _).mpr (.inl rfl), by
        rw [Name.ofText_spelling]
        exact List.append_cancel_left same⟩
    · obtain ⟨key, member, rfl⟩ := fills.only q entry root found
      exact ⟨key, (known _).mpr (.inr member), rfl⟩

/-- Entries that fit are written, and the folder holds them besides what it held. If one of them
does not fit, at most what lies in the folder has changed. -/
theorem run_writeEntries (isOpen : IsOpenFolder beside s.disk)
    (fills : Fills done.spelled beside s.disk) (env : Env) :
    ((∀ entry ∈ rest, Fits beside entry) ∧ ∃ t,
      (writeEntries (pathOf beside) rest).run env s = (.ok (), t) ∧
      Fills (spelled (done ++ rest)) beside t.disk ∧
      ∀ q, ¬beside <+: q → t.disk.find? q = s.disk.find? q) ∨
    (¬(∀ entry ∈ rest, Fits beside entry) ∧ ∃ failure t,
      (writeEntries (pathOf beside) rest).run env s = (.error failure, t) ∧
      ∀ q, ¬beside <+: q → t.disk.find? q = s.disk.find? q) := by
  induction rest generalizing done s with
  | nil =>
    exact .inl ⟨fun _ member => absurd member (by simp), s, rfl,
      (List.append_nil done).symm ▸ fills, fun _ _ => rfl⟩
  | cons entry rest ih =>
    obtain ⟨name, content⟩ := entry
    have first : writeEntries (pathOf beside) ((name, content) :: rest) = (do
        writeEntry (pathOf beside) (name, content)
        writeEntries (pathOf beside) rest) := by
      rw [writeEntries, writeEntry, bind_assoc]
    rw [first, run_bind, List.forall_mem_cons]
    rcases run_writeEntry isOpen fills.noFolder content env with
      ⟨fit, bytes, t, encoded, writes, written⟩ | ⟨unfit, failure, t, fails, same⟩
    · rw [writes]
      have same (q : Route) (other : q ≠ fileOf beside name) : t.disk.find? q = s.disk.find? q := by
        rw [written, if_neg other]
      have isOpen' : IsOpenFolder beside t.disk := isOpen.congr fun q above => same q (by
        rintro rfl
        exact not_prefix_of_fileOf above)
      have away {q : Route} (outside : ¬beside <+: q) : q ≠ fileOf beside name := by
        rintro rfl
        exact outside (List.prefix_append beside _)
      rcases ih isOpen' (fills.add encoded written) with
        ⟨fits, u, rests, filled, kept⟩ | ⟨unfit, failure, u, fails, kept⟩
      · exact .inl ⟨⟨fit, fits⟩, u, rests, by simpa using filled,
          fun q outside => (kept q outside).trans (same q (away outside))⟩
      · exact .inr ⟨fun fits => unfit fits.2, failure, u, fails,
          fun q outside => (kept q outside).trans (same q (away outside))⟩
    · rw [fails]
      exact .inr ⟨fun fits => unfit fits.1, failure, t, rfl, same⟩

end Grimoire.Bundle
