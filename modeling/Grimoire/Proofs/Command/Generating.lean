import Grimoire.Proofs.Bundle.Archiving
import Grimoire.Proofs.Bundle.Placing
import Grimoire.Proofs.Command.Adding
import Grimoire.Proofs.Console.Encodable
import Grimoire.Proofs.Spell.Acceptance

/-!
# The command that generates

The command loads a spell, tells what is odd about it, writes its bundle and, if that is wanted, the
archive of the bundle, and prints a table of what it has written. Each step may be the last one. What is
on the disk afterwards, and whether all has been written, depends on the spell and on the disk only
(`Command.run_generateSpell`).
-/

namespace Grimoire

open Disk

/-! ## Names of spells -/

theorem Spell.IsValid.nameCodePoints {new : Spell} (valid : new.IsValid) :
    ∀ c ∈ new.name, isNameCodePoint c = true :=
  (nameFault?_eq_none_iff.mp valid.name).2

theorem Spell.low_of_isNameCodePoint {c : CodePoint} (named : isNameCodePoint c = true) :
    c.val < 0x80 := by
  cases c with
  | scalar c =>
    simp only [isNameCodePoint, CodePoint.satisfies, Bool.or_eq_true, beq_iff_eq] at named
    rcases named with alphanumeric | rfl
    · have ranges : (decide (c.val ≥ 65 ∧ c.val ≤ 90) || (c.val ≥ 97 && c.val ≤ 122)
          || (c.val ≥ 48 && c.val ≤ 57)) = true := alphanumeric
      simp only [Bool.or_eq_true, decide_eq_true_eq, Bool.and_eq_true, ge_iff_le,
        UInt32.le_iff_toNat_le] at ranges
      simp only [CodePoint.val, Char.toNat]
      grind
    · decide
  | surrogate s => cases named

/-- The name of a spell has no dots, so that it stands apart from each name with an ending. -/
theorem Spell.IsValid.isStem {new : Spell} (valid : new.IsValid) : Bundle.IsStem new.name := by
  have other (c : CodePoint) (no : isNameCodePoint c = false) : c ∉ new.name := fun member =>
    absurd ((valid.nameCodePoints c member).symm.trans no) (by simp)
  refine ⟨Name.isNameable_of_isEncodable (nameFault?_eq_none_iff.mp valid.name).1.encodable, ?_,
    other _ (by decide), other _ (by decide), other _ (by decide)⟩
  intro empty
  have long := (nameFault?_eq_none_iff.mp valid.name).1.long
  rw [empty] at long
  exact absurd long (by decide)

theorem Spell.IsValid.nameSize_le {new : Spell} (valid : new.IsValid) : nameSize new.name ≤ 255 := by
  have short := (nameFault?_eq_none_iff.mp valid.name).1.short maxNameLength rfl
  have bound : maxNameLength = 50 := rfl
  have all := Name.length_ofText_le new.name
  rw [nameSize]
  omega

/-- The characters of names are low, so that names that differ are different names on a disk. -/
theorem Spell.IsValid.ofText_name_ne {new new' : Spell} (valid : new.IsValid)
    (valid' : new'.IsValid) (differ : new.name ≠ new'.name) :
    Name.ofText new.name ≠ Name.ofText new'.name :=
  mt (Name.ofText_inj_of_low (fun c member => low_of_isNameCodePoint (valid.nameCodePoints c member))
    fun c member => low_of_isNameCodePoint (valid'.nameCodePoints c member)) differ

theorem Path.names_ofText (t : Text) : ∀ name ∈ (Path.ofText t).names, name ≠ [] := by
  intro name member
  simp only [Path.ofText, Path.namesOf, List.mem_filter, decide_eq_true_eq] at member
  exact member.2.1

namespace Command

open Act Grimoire.Bundle

variable {env : Env} {s t : State} {source out : Text} {alsoArchive force : Bool} {new : Spell}
  {d e : Disk}

theorem isValid_of_loadSpell (loads : (loadSpell source).run env s = (.ok new, t)) :
    new.IsValid := by
  obtain ⟨candidate, u, read, checks⟩ := run_bind_eq_ok.mp loads
  have checked : Spell.check candidate = .valid new := by
    unfold Book.check at checks
    cases outcome : Spell.check candidate with
    | valid new' =>
      rw [outcome] at checks
      rw [Except.ok.inj (Prod.mk.inj checks).1]
    | invalid first rest =>
      rw [outcome, run_bind_eq_ok] at checks
      obtain ⟨_, _, -, throws⟩ := checks
      exact absurd throws (by simp [run_throw])
  have isChecked : new.IsChecked := ⟨candidate, Source.isProper_of_read read, checked⟩
  exact isChecked.rules.1

theorem isPassive_loadSpell (source : Text) : IsPassive (loadSpell source) :=
  (Source.isPassive_read source).bind fun _ => Book.isPassive_check _

/-! ## The table -/

/-- Whether a table can be printed on a console. -/
def IsPrintable (rules : Markup.Rules) (table : Table) : Prop := CanPrint (table.lines rules)

theorem run_printTable_eq_ok (table : Table) (env : Env) (s : State) :
    ((printTable table).run env s).1 = .ok () ↔ IsPrintable env.marks table := by
  rw [printTable, run_bind, run_env]
  exact run_printLines_eq_ok _ env s

/-- The row of a file whose text can be encoded. -/
def rowOf (bundle : Bundle) (p : Path) : List Text :=
  [p.text, Text.ofNat ((Utf8.encode ((Entries.find? p.name bundle).getD [])).getD []).length]

theorem run_fileRows {bundle : Bundle} (encodable : ∀ e ∈ bundle, e.2.isEncodable = true)
    (written : List Path) (env : Env) (s : State) :
    (written.mapM (fileRow bundle)).run env s = (.ok (written.map (rowOf bundle)), s) := by
  have row (p : Path) : fileRow bundle p = pure (rowOf bundle p) := by
    have there : ((Entries.find? p.name bundle).getD []).isEncodable = true := by
      cases found : Entries.find? p.name bundle with
      | none => rfl
      | some t => exact encodable _ (Entries.mem_of_find? found)
    obtain ⟨bytes, encoded⟩ :=
      Option.isSome_iff_exists.mp ((Utf8.isSome_encode _).trans there)
    rw [fileRow, rowOf, encode, encoded, pure_bind]
    rfl
  rw [funext row, List.mapM_pure]
  rfl

/-- The table of what has been written for a spell. -/
def generatedTable (new : Spell) (here : Route) (folder : Path) (alsoArchive : Bool) : Table :=
  ⟨"Generated " ++ new.name, [column "File", numberColumn "Bytes"],
    (paths (absolute here (child folder new.name)) (ofSpell new)).map (rowOf (ofSpell new)) ++
      if alsoArchive then [[(archivePath folder new.name).text,
        Text.ofNat (archiveOf (ofSpell new)).bytes.length]] else []⟩

/-- A table of texts without marks can be printed. -/
theorem isPrintable_of_showable (rules : Markup.Rules) {table : Table}
    (title : Console.IsShowable table.title)
    (headers : ∀ column ∈ table.columns, Console.IsShowable column.header)
    (cells : ∀ row ∈ table.rows, ∀ t ∈ row, Console.IsShowable t) : IsPrintable rules table :=
  Table.lines_eq_ok rules title headers cells

theorem isShowable_name (valid : new.IsValid) : Console.IsShowable new.name := by
  refine ⟨fun member => ?_, (Spell.nameFault?_eq_none_iff.mp valid.name).1.encodable⟩
  exact absurd (valid.nameCodePoints _ member) (by decide)

/-- The table can be printed if there are no marks in the path of the folder. -/
theorem isPrintable_generatedTable (rules : Markup.Rules) (valid : new.IsValid) {here : Route}
    {folder : Path}
    (route : ∀ name ∈ (absolute here folder).names, Console.IsShowable name)
    (path : ∀ name ∈ folder.names, Console.IsShowable name) (alsoArchive : Bool) :
    IsPrintable rules (generatedTable new here folder alsoArchive) := by
  have name := isShowable_name valid
  have place := absolute_child valid.isStem.down here folder
  have files : ∀ key ∈ (ofSpell new).keys, Console.IsShowable key := by
    rw [names_ofSpell]
    decide
  refine isPrintable_of_showable rules (Console.isShowable_append.mpr ⟨by decide, name⟩) ?_ ?_
  · simp only [generatedTable, List.forall_mem_cons]
    exact ⟨by decide, by decide, by simp⟩
  · simp only [generatedTable, List.forall_mem_append, List.forall_mem_map]
    constructor
    · intro p member
      obtain ⟨key, inside, rfl⟩ := List.mem_map.mp member
      have key' := files key ((sorted_keys (ofSpell new)).1.mem_iff.mp inside)
      simp only [rowOf, List.forall_mem_cons]
      refine ⟨Console.isShowable_text ?_, Console.isShowable_ofNat _, by simp⟩
      rw [place, child]
      simpa [or_imp, forall_and] using ⟨route, name, key'⟩
    · cases alsoArchive with
      | false => simp
      | true =>
        simp only [if_true, List.forall_mem_singleton, List.forall_mem_cons]
        refine ⟨Console.isShowable_text ?_, Console.isShowable_ofNat _⟩
        have archive := Console.isShowable_append.mpr ⟨name, (by decide : Console.IsShowable ".zip")⟩
        simpa [archivePath, child, or_imp, forall_and] using ⟨path, archive⟩

/-! ## What is left on the disk -/

/-- Whether nothing about a spell or a path is in the way of writing the bundle of the spell: what is odd
about the spell can be told on the console, too. -/
structure CanBegin (rules : Markup.Rules) (new : Spell) (here : Route) (folder : Path) : Prop where
  warnings : ∃ warnings, new.warnings = .ok warnings ∧
    ∀ warning ∈ warnings, IsSayable rules ("[yellow]warning:[/yellow] " ++ warning.message)
  writable : new.isWritable = true
  accepted : refusal? folder = none
  short : nameSize (pathOf (fileOf (resolve here folder) new.name)).text ≤ 4095

/-- Whether a disk has the bundle of a spell in its place and is else a disk with the folder. -/
structure IsPlaced (new : Spell) (here : Route) (folder : Path) (d e : Disk) : Prop where
  filled : Fills (ofSpell new) (fileOf (resolve here folder) new.name) e
  others : ∀ q, ¬fileOf (resolve here folder) new.name <+: q →
    e.find? q = (d.grounded here (resolve here folder)).find? q

/-- The disks that may be left where an archive is to be written or not, and whether all is written. -/
inductive Archives (here : Route) (folder : Path) (name : Text) (bundle : Bundle) (alsoArchive : Bool)
    (d : Disk) : Bool → Disk → Prop
  | unasked {e : Disk} (unasked : alsoArchive = false) (same : d.Same e) :
    Archives here folder name bundle alsoArchive d true e
  | unopened {e : Disk} (asked : alsoArchive = true) (cannot : ¬CanArchive d here folder name)
    (same : (opened d here folder).Same e) : Archives here folder name bundle alsoArchive d false e
  | undigested {e : Disk} (asked : alsoArchive = true) (can : CanArchive d here folder name)
    (cannot : ¬IsPlaceable (opened d here folder) here (digestPath folder name))
    (left : ∀ q, e.find? q = if q = resolve here (archivePath folder name) then
      some (.file (archiveOf bundle).bytes) else (opened d here folder).find? q) :
    Archives here folder name bundle alsoArchive d false e
  | archived {e : Disk} (asked : alsoArchive = true) (can : CanArchive d here folder name)
    (canDigest : IsPlaceable (opened d here folder) here (digestPath folder name))
    (left : ∀ q, e.find? q = if q = resolve here (digestPath folder name) then
        some (.file (digestBytes (archiveOf bundle)))
      else if q = resolve here (archivePath folder name) then
        some (.file (archiveOf bundle).bytes)
      else (opened d here folder).find? q) :
    Archives here folder name bundle alsoArchive d true e

/-- The disks that may be left when a spell is generated, and whether all is written. -/
inductive Leaves (rules : Markup.Rules) (new : Spell) (here : Route) (folder : Path)
    (alsoArchive force : Bool) (d : Disk) : Bool → Disk → Prop
  | refused (cannot : ¬CanBegin rules new here folder) :
    Leaves rules new here folder alsoArchive force d false d
  | unplaced {e : Disk} (can : CanBegin rules new here folder)
    (cannot : ¬CanPlace d here (resolve here folder) (Name.ofText new.name) (ofSpell new) force)
    (same : (d.grounded here (resolve here folder)).Same e) :
    Leaves rules new here folder alsoArchive force d false e
  | placed {c e : Disk} {done : Bool} (can : CanBegin rules new here folder)
    (canPlace : CanPlace d here (resolve here folder) (Name.ofText new.name) (ofSpell new) force)
    (placed : IsPlaced new here folder d c)
    (archives : Archives here folder new.name (ofSpell new) alsoArchive c done e) :
    Leaves rules new here folder alsoArchive force d done e

/-- What is done about a bundle that was not written. -/
def reportUnwritten (failure : Failure) : Act Nat :=
  if isTaken failure then do
    say ("[red]Error:[/red] " ++ failure.message ++ " (use --force to replace it)")
    return 1
  else throw failure

/-- What is done about a bundle that was written. -/
def reportWritten (folder : Path) (bundle : Bundle) (name : Text) (alsoArchive : Bool)
    (written : List Path) : Act Nat := do
  let rows ← written.mapM (fileRow bundle)
  let more ← archiveRows folder bundle name alsoArchive
  printTable ⟨"Generated " ++ name, [column "File", numberColumn "Bytes"], rows ++ more⟩
  return 0

/-- What the command does with a spell that it has loaded. -/
def generateSpell (out : Text) (alsoArchive force : Bool) (new : Spell) : Act Nat := do
  sayWarnings new
  let bundle ← Bundle.generate new
  match ← Act.attempt (Bundle.writeFolder ((Path.ofText out).below new.name) bundle force) with
  | .error failure => reportUnwritten failure
  | .ok written => reportWritten (Path.ofText out) bundle new.name alsoArchive written

theorem runGenerate_eq (source out : Text) (alsoArchive force : Bool) :
    runGenerate source out alsoArchive force
      = orReport (loadSpell source) (generateSpell out alsoArchive force) := rfl

/-- Whether an archive gets to its place, if one is wanted, is all that decides. -/
theorem run_archiveRows {bundle : Bundle} {name : Text} (stem : IsStem name)
    (archivable : IsArchivable bundle) (folder : Path) (alsoArchive : Bool) (env : Env) (s : State) :
    ∃ done t, Archives env.here folder name bundle alsoArchive s.disk done t.disk ∧
      ((done = true ∧ (archiveRows folder bundle name alsoArchive).run env s
        = (.ok (if alsoArchive then [[(archivePath folder name).text,
          Text.ofNat (archiveOf bundle).bytes.length]] else []), t)) ∨
      (done = false ∧ ∃ failure,
        (archiveRows folder bundle name alsoArchive).run env s = (.error failure, t))) := by
  cases alsoArchive with
  | false => exact ⟨true, s, .unasked rfl fun q => rfl, .inl ⟨rfl, rfl⟩⟩
  | true =>
    have parts : archiveRows folder bundle name true = (do
        let written ← writeArchive folder bundle (some name)
        return [[written.1.text, Text.ofNat written.2.bytes.length]]) := rfl
    rw [parts, run_bind]
    rcases run_writeArchive stem archivable folder env s with
      ⟨cannot, failure, t, fails, same⟩ | ⟨can, ⟨cannot, failure, t, fails, left⟩ |
        ⟨canDigest, t, writes, left⟩⟩
    · rw [fails]
      exact ⟨false, t, .unopened rfl cannot same, .inr ⟨rfl, failure, rfl⟩⟩
    · rw [fails]
      exact ⟨false, t, .undigested rfl can cannot left, .inr ⟨rfl, failure, rfl⟩⟩
    · rw [writes]
      exact ⟨true, t, .archived rfl can canDigest left, .inl ⟨rfl, rfl⟩⟩

/-- The entries of the bundle of a spell have files of their own. -/
theorem apart_ofSpell (new : Spell) : ((ofSpell new).keys.map Name.ofText).Nodup := by
  rw [names_ofSpell]
  decide

theorem distinct_ofSpell (new : Spell) : (ofSpell new).keys.Nodup :=
  (apart_ofSpell new).of_map

theorem isArchivable_ofSpell {new : Spell} {folder : Route}
    (fits : ∀ entry ∈ ofSpell new, Fits folder entry) : IsArchivable (ofSpell new) := by
  have named : ∀ key ∈ (ofSpell new).keys, key.isEncodable = true ∧
      (Archive.nameBytes key).length ≤ Archive.nameLimit := by
    rw [names_ofSpell]
    decide
  intro entry member
  obtain ⟨encodable, brief⟩ := named entry.1 (List.mem_map_of_mem member)
  exact ⟨(fits entry member).name.plain, (fits entry member).name.nul, encodable, brief,
    (fits entry member).encodable⟩

theorem isPassive_reportUnwritten (failure : Failure) : IsPassive (reportUnwritten failure) := by
  unfold reportUnwritten
  split
  · exact (isPassive_say _).bind fun _ => .pure 1
  · exact .throw failure

theorem run_reportUnwritten (failure : Failure) (env : Env) (s : State) :
    ((reportUnwritten failure).run env s).1 ≠ .ok 0 := by
  unfold reportUnwritten
  split
  · intro zero
    obtain ⟨_, _, -, ends⟩ := run_bind_eq_ok.mp (Prod.ext zero rfl)
    exact absurd (Prod.mk.inj ends).1 (by simp)
  · simp [run_throw]

/-- Once the bundle is written, what becomes of the archive and whether the table can be printed decide.
-/
theorem run_reportWritten (valid : new.IsValid) {r : Route}
    (fits : ∀ entry ∈ ofSpell new, Fits r entry) (folder : Path) (alsoArchive : Bool) (env : Env)
    (s : State) : ∃ done,
    Archives env.here folder new.name (ofSpell new) alsoArchive s.disk done
      ((reportWritten folder (ofSpell new) new.name alsoArchive
        (paths (absolute env.here (child folder new.name)) (ofSpell new))).run env s).2.disk ∧
    (((reportWritten folder (ofSpell new) new.name alsoArchive
        (paths (absolute env.here (child folder new.name)) (ofSpell new))).run env s).1 = .ok 0 ↔
      done = true ∧ IsPrintable env.marks (generatedTable new env.here folder alsoArchive)) := by
  rw [reportWritten, run_bind, run_fileRows fun entry member => (fits entry member).encodable]
  dsimp only
  rw [run_bind]
  obtain ⟨done, t, archives, ⟨rfl, writes⟩ | ⟨rfl, failure, fails⟩⟩ := run_archiveRows valid.isStem
    (isArchivable_ofSpell fits) folder alsoArchive env s
  · rw [writes]
    dsimp only
    have printed := run_printTable_eq_ok (generatedTable new env.here folder alsoArchive) env t
    have disk := (isPassive_printTable (generatedTable new env.here folder alsoArchive) env t).1
    rcases outcome : (printTable (generatedTable new env.here folder alsoArchive)).run env t with
      ⟨failure | ⟨⟩, u⟩ <;> rw [outcome] at printed disk <;> rw [generatedTable] at outcome <;>
        rw [run_bind, outcome]
    · exact ⟨true, disk.symm ▸ archives, by simpa using printed⟩
    · exact ⟨true, disk.symm ▸ archives, by simpa [run_pure] using printed⟩
  · rw [fails]
    exact ⟨false, archives, by simp⟩

theorem run_generate (new : Spell) (env : Env) (s : State) :
    (new.isWritable = true ∧ ∃ t, (Bundle.generate new).run env s = (.ok (ofSpell new), t) ∧
      t.disk = s.disk) ∨
    (new.isWritable = false ∧ ∃ failure t, (Bundle.generate new).run env s = (.error failure, t) ∧
      t.disk = s.disk) := by
  rw [Bundle.generate, run_bind, run_note]
  dsimp only
  cases writable : new.isWritable with
  | true => exact .inl ⟨rfl, _, rfl, rfl⟩
  | false => exact .inr ⟨rfl, _, _, rfl, rfl⟩

/-- What the command does with the bundle of a spell. -/
def deliver (out : Text) (alsoArchive force : Bool) (new : Spell) (bundle : Bundle) : Act Nat := do
  match ← Act.attempt (writeFolder ((Path.ofText out).below new.name) bundle force) with
  | .error failure => reportUnwritten failure
  | .ok written => reportWritten (Path.ofText out) bundle new.name alsoArchive written

theorem generateSpell_eq (out : Text) (alsoArchive force : Bool) (new : Spell) :
    generateSpell out alsoArchive force new = (do
      sayWarnings new
      let bundle ← Bundle.generate new
      deliver out alsoArchive force new bundle) := rfl

/-- What is left on the disk when the bundle of a spell is delivered of which all warnings were told. -/
theorem run_deliver (valid : new.IsValid) (tree : s.disk.IsTree) (plain : IsPlain env.here)
    (out : Text) (alsoArchive force : Bool) (writable : new.isWritable = true)
    (warned : ∃ warnings, new.warnings = .ok warnings ∧ ∀ warning ∈ warnings,
      IsSayable env.marks ("[yellow]warning:[/yellow] " ++ warning.message)) : ∃ done,
    Leaves env.marks new env.here (Path.ofText out) alsoArchive force s.disk done
      ((deliver out alsoArchive force new (ofSpell new)).run env s).2.disk ∧
    (((deliver out alsoArchive force new (ofSpell new)).run env s).1 = .ok 0 ↔ done = true ∧
      IsPrintable env.marks (generatedTable new env.here (Path.ofText out) alsoArchive)) := by
  have stem := valid.isStem
  have target : (Path.ofText out).below new.name = child (Path.ofText out) new.name :=
    below_eq_child stem.slash stem.nonempty stem.notDot _
  have goes := resolve_child stem.ofText_ne_up env.here (Path.ofText out)
  have named : ∀ name ∈ (child (Path.ofText out) new.name).names, name ≠ [] := by
    simpa [child, or_imp, forall_and] using ⟨Path.names_ofText out, stem.nonempty⟩
  have asked : refusal? (child (Path.ofText out) new.name) = none ↔
      refusal? (Path.ofText out) = none := by
    simp [refusal?_eq_none_iff, child, stem.nul, stem.nameable]
  have plain' (accepted : refusal? (child (Path.ofText out) new.name) = none) :
      IsPlain (fileOf (resolve env.here (Path.ofText out)) new.name) :=
    goes ▸ isPlain_resolve plain named accepted
  rw [deliver, run_bind, run_attempt, target]
  dsimp only
  by_cases fine : refusal? (child (Path.ofText out) new.name) = none ∧
    nameSize (pathOf (fileOf (resolve env.here (Path.ofText out)) new.name)).text ≤ 4095
  · have can : CanBegin env.marks new env.here (Path.ofText out) :=
      ⟨warned, writable, asked.mp fine.1, fine.2⟩
    rcases run_placed force tree (plain' fine.1) fine.1 goes valid.nameSize_le fine.2 with
      ⟨canPlace, t, writes, filled, others⟩ | ⟨cannot, failure, t, fails, kept⟩
    · rw [writes]
      obtain ⟨done, archives, code⟩ := run_reportWritten valid canPlace.stage.put.fits
        (Path.ofText out) alsoArchive env t
      have filled' := (fills_spelled_iff (apart_ofSpell new)).mp filled
      exact ⟨done, .placed can canPlace ⟨filled', others⟩ archives, code⟩
    · rw [fails]
      refine ⟨false, .unplaced can cannot ?_, by simp [run_reportUnwritten]⟩
      dsimp only
      rw [(isPassive_reportUnwritten failure env t).1]
      exact kept
  · obtain ⟨failure, fails⟩ : ∃ failure,
        (writeFolder (child (Path.ofText out) new.name) (ofSpell new) force).run env s
          = (.error failure, s) :=
      run_writeFolder_unwritable force plain' goes fine
    rw [fails]
    dsimp only
    rw [(isPassive_reportUnwritten failure env s).1]
    exact ⟨false, .refused fun can => fine ⟨asked.mpr can.accepted, can.short⟩,
      by simp [run_reportUnwritten]⟩

/-- What is left on the disk when a spell is generated, and when the command ends with code 0. -/
theorem run_generateSpell (valid : new.IsValid) (tree : s.disk.IsTree) (plain : IsPlain env.here)
    (out : Text) (alsoArchive force : Bool) : ∃ done,
    Leaves env.marks new env.here (Path.ofText out) alsoArchive force s.disk done
      ((generateSpell out alsoArchive force new).run env s).2.disk ∧
    (((generateSpell out alsoArchive force new).run env s).1 = .ok 0 ↔ done = true ∧
      IsPrintable env.marks (generatedTable new env.here (Path.ofText out) alsoArchive)) := by
  have warned := run_sayWarnings_eq_ok new env s
  have first := (isPassive_sayWarnings new env s).1
  rw [generateSpell_eq, run_bind]
  rcases tells : (sayWarnings new).run env s with ⟨failure | ⟨⟩, t⟩ <;> rw [tells] at warned first
  · dsimp only at first ⊢
    rw [first]
    exact ⟨false, .refused fun can => absurd (warned.mpr can.warnings) (by simp), by simp⟩
  dsimp only at warned first ⊢
  rw [run_bind]
  rcases run_generate new env t with ⟨writable, u, generates, second⟩ |
    ⟨unwritable, failure, u, fails, second⟩
  · rw [generates]
    dsimp only
    have same : u.disk = s.disk := second.trans first
    have delivered := run_deliver valid (same.symm ▸ tree) plain out alsoArchive force writable
      (warned.mp rfl)
    rwa [same] at delivered
  · rw [fails]
    dsimp only
    rw [second, first]
    exact ⟨false, .refused fun can => absurd (unwritable.symm.trans can.writable) (by simp), by simp⟩

end Command

end Grimoire
