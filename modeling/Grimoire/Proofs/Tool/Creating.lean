import Grimoire.Proofs.Command.Adding
import Grimoire.Tool.Call

/-!
# Creating is all or nothing

The tool that creates spells either leaves every file as it was or puts one spell behind those of
the book, under an identifier of its own (`Tool.run_runCreate`). A call of a tool always gives an
answer; one that is an error, or comes from another tool, goes with unchanged files
(`Tool.call_atomic`).
-/

namespace Grimoire.Tool

open Act Book

variable {place : Option Text} {arguments : Members} {env : Env} {s t u : State} {new : Spell}

/-! ## What is to be saved -/

/-- All that is done before a spell is saved: the spell, its bundle, and the book with it. -/
def prepareCreate (place : Option Text) (arguments : Members) : Act (Spell × Bundle × Book) := do
  let id ← drawId
  let new ← Book.check (Request.created arguments id)
  let book ← Book.load place
  match book.named? new.name with
  | some old => throw (.duplicateName new.name old.id)
  | none =>
    let bundle ← Bundle.generate new
    return (new, bundle, book.add new)

/-- What is noted and answered after a spell was saved. -/
def reportCreated (new : Spell) (bundle : Bundle) (p : Path) : Act (List Text) := do
  note .info .server "spell created" [("spell", .str new.name), ("id", .str new.id)]
  return [summary new bundle p, preview bundle]

theorem runCreate_eq (place : Option Text) (arguments : Members) :
    runCreate place arguments = (do
      let prepared ← prepareCreate place arguments
      let p ← Book.save place prepared.2.2
      reportCreated prepared.1 prepared.2.1 p) := by
  simp only [runCreate, prepareCreate, bind_assoc]
  refine congrArg _ (funext fun id => congrArg _ (funext fun new => congrArg _
    (funext fun book => ?_)))
  cases book.named? new.name with
  | some old => rfl
  | none => simp only [bind_assoc, pure_bind, reportCreated]

/-- Whether arguments make a spell, under a fresh identifier, that can be put behind those of the
book that loads. -/
structure Prepares (env : Env) (d : Disk) (fresh : Text) (place : Option Text)
    (arguments : Members) (before : Reading) (new : Spell) : Prop where
  loads : loaded env.rooms.book (d.contentAt env.here (pathOf env place)) = .ok before
  valid : Spell.check (Request.created arguments fresh) = .valid new
  free : before.book.named? new.name = none

/-- What is done before a spell is saved leaves the disk alone. -/
theorem run_prepareCreate (place : Option Text) (arguments : Members) (env : Env) (s : State) :
    (∃ new bundle before t, (prepareCreate place arguments).run env s
        = (.ok (new, bundle, before.book.add new), t) ∧ t.disk = s.disk ∧
      Prepares env s.disk (env.freshId (s.drawn + 1)) place arguments before new) ∨
    ∃ failure t, (prepareCreate place arguments).run env s = (.error failure, t) ∧
      t.disk = s.disk := by
  -- One step after the other: where a step fails, the rest is not run.
  rw [prepareCreate, run_bind, run_drawId]
  dsimp only
  rw [run_bind, Book.check]
  cases valid : Spell.check (Request.created arguments (env.freshId (s.drawn + 1))) with
  | invalid first rest => exact .inr ⟨_, _, rfl, rfl⟩
  | valid new =>
    obtain ⟨t, loading, logs⟩ := run_load place env { s with drawn := s.drawn + 1 }
    dsimp only
    rw [run_pure]
    dsimp only
    rw [run_bind, loading]
    cases loads : loaded env.rooms.book (s.disk.contentAt env.here (pathOf env place)) with
    | error failure => exact .inr ⟨failure, t, rfl, logs.disk⟩
    | ok before =>
      dsimp only [Except.map]
      cases free : before.book.named? new.name with
      | some old => exact .inr ⟨_, t, rfl, logs.disk⟩
      | none =>
        obtain ⟨u, generates, logs'⟩ := run_generate new env t
        dsimp only
        rw [run_bind, generates]
        have disk : u.disk = s.disk := logs'.disk.trans logs.disk
        cases new.isWritable with
        | false => exact .inr ⟨_, u, rfl, disk⟩
        | true => exact .inl ⟨new, _, before, u, rfl, disk, loads, valid, free⟩

/-! ## Creating a spell -/

/-- Whether no spell of the book that loads has an identifier. -/
def IsUnused (env : Env) (d : Disk) (place : Option Text) (id : Text) : Prop :=
  ∀ reading, loaded env.rooms.book (d.contentAt env.here (pathOf env place)) = .ok reading →
    id ∉ Entries.keys reading.book

/-- Whether a spell has been created from arguments between two disks: the spells that load
afterwards are those that loaded before and then one spell, which has the fresh identifier and
otherwise what a check makes of the arguments; every other file is as it was. -/
structure HasCreated (env : Env) (d : Disk) (fresh : Text) (place : Option Text)
    (arguments : Members) (e : Disk) : Prop where
  appended : ∃ before after new, Prepares env d fresh place arguments before new ∧
    new.id = fresh ∧ loaded env.rooms.book (e.contentAt env.here (pathOf env place)) = .ok after ∧
    wires after.book = wires before.book ++ [new.wire] ∧ after.rejected = []
  others : ∀ r ≠ Disk.resolve env.here (pathOf env place), d.SameFile e r

/-- A spell from arguments has the identifier that was put in the place of theirs. -/
theorem id_of_check_created {fresh : Text}
    (valid : Spell.check (Request.created arguments fresh) = .valid new) : new.id = fresh := by
  have found := (Spell.fields_of_check valid).1
  rw [Entries.find?_put, if_pos rfl] at found
  exact (Json.str.inj (Option.some.inj found)).symm

/-- A spell under a new identifier is written behind the others. -/
theorem wires_add {book : Book} (unused : new.id ∉ Entries.keys book) :
    wires (book.add new) = wires book ++ [new.wire] := by
  rw [Book.add, Entries.put_of_notMem unused]
  simp [wires, Entries.values]

theorem hasCreated_saved {d : Disk} {fresh : Text} {before : Reading} (tree : d.IsTree)
    (proper : (Json.obj arguments).isProper = true)
    (unused : IsUnused env d place fresh)
    (same : t.disk = d) (prepares : Prepares env d fresh place arguments before new)
    (saved : (saveTo (pathOf env place) (before.book.add new)).run env t = (.ok (), u)) :
    HasCreated env d fresh place arguments u.disk := by
  subst same
  have checked : new.IsChecked :=
    ⟨_, Json.isProper_put (Json.isProper_erase proper "id") "id" fresh, prepares.valid⟩
  have lawful : IsLawful (before.book.add new) := (isLawful_loaded prepares.loads).add checked
  have named : new.id = fresh := id_of_check_created prepares.valid
  refine ⟨⟨before, ⟨normal (before.book.add new), []⟩, new, prepares, named,
    loads_saved tree lawful saved, ?_, rfl⟩, fun r other => sameFile_saved tree saved other⟩
  show wires (normal (before.book.add new)) = wires before.book ++ [new.wire]
  rw [wires_normal, wires_add (named.symm ▸ unused before prepares.loads)]

theorem logs_reportCreated (new : Spell) (bundle : Bundle) (p : Path) (env : Env) (s : State) :
    ∃ texts t, (reportCreated new bundle p).run env s = (.ok texts, t) ∧ s.Logs t :=
  ⟨_, _, rfl, _, rfl⟩

/-- A spell is created, or the files stay as they are. -/
theorem run_runCreate (tree : s.disk.IsTree) (proper : (Json.obj arguments).isProper = true)
    (unused : IsUnused env s.disk place (env.freshId (s.drawn + 1))) :
    (∃ texts t, (runCreate place arguments).run env s = (.ok texts, t) ∧
      HasCreated env s.disk (env.freshId (s.drawn + 1)) place arguments t.disk) ∨
    ∃ failure t, (runCreate place arguments).run env s = (.error failure, t) ∧
      ∀ r, s.disk.SameFile t.disk r := by
  rw [runCreate_eq, run_bind]
  rcases run_prepareCreate place arguments env s with
    ⟨new, bundle, before, t, prepared, same, prepares⟩ | ⟨failure, t, fails, same⟩
  · rw [prepared]
    dsimp only
    rw [run_bind]
    rcases saves : (Book.save place (before.book.add new)).run env t with ⟨failure | p, u⟩
    · refine .inr ⟨failure, u, rfl, ?_⟩
      rw [← same]
      exact sameFile_unsaved (same.symm ▸ tree) (run_save_eq_error.mp saves)
    · obtain ⟨rfl, saved⟩ := run_save_eq_ok.mp saves
      obtain ⟨texts, v, reports, logs⟩ := logs_reportCreated new bundle (pathOf env place) env u
      refine .inl ⟨texts, v, reports, ?_⟩
      rw [logs.disk]
      exact hasCreated_saved tree proper unused same prepares saved
  · rw [fails]
    refine .inr ⟨failure, t, rfl, ?_⟩
    rw [same]
    exact (Disk.Adds.refl s.disk).sameFile

/-! ## Calling a tool -/

theorem run_tryCatch {α : Type} (act : Act α) (handle : Failure → Act α) (env : Env) (s : State) :
    (tryCatch act handle).run env s = match act.run env s with
      | (.ok a, t) => (.ok a, t)
      | (.error failure, t) => (handle failure).run env t := rfl

/-- What may become of the files in a call: all stay as they are if the call is an error or is not
of the tool that creates spells, and otherwise a spell is created. -/
structure IsAtomic (env : Env) (d : Disk) (fresh : Text) (place : Option Text) (name : Text)
    (arguments : Members) (isError : Bool) (e : Disk) : Prop where
  kept : isError = true ∨ name ≠ createSpell.name → ∀ r, d.SameFile e r
  created : isError = false → name = createSpell.name →
    HasCreated env d fresh place arguments e

theorem name_of_find? {name : Text} {tool : Tool} (found : find? name = some tool) :
    name = tool.name := by
  rw [find?] at found
  have holds := List.find?_some found
  exact (of_decide_eq_true holds).symm

theorem isPassive_runList (place : Option Text) : IsPassive (runList place) := by
  refine IsPassive.bind (fun env s => ?_) fun book => .pure (listText book)
  obtain ⟨t, loading, logs⟩ := run_load place env s
  rw [loading]
  exact ⟨logs.disk, logs.drawn⟩

/-- A call that leaves the disk alone, of another tool or with an error, is atomic. -/
theorem isAtomic_of_same {d : Disk} {fresh name : Text} {isError : Bool}
    (idle : isError = true ∨ name ≠ createSpell.name) :
    IsAtomic env d fresh place name arguments isError d := by
  refine ⟨fun _ => (Disk.Adds.refl d).sameFile, fun fine created => ?_⟩
  rcases idle with error | other
  · exact absurd (error.symm.trans fine) (by simp)
  · exact absurd created other

/-- Running anything but the tool that creates spells leaves the disk alone. -/
theorem isPassive_run {name : Text} (other : name ≠ createSpell.name) :
    IsPassive (run place name arguments) := by
  refine (IsPassive.note _ _ _ _).bind fun _ => ?_
  split
  · next found => exact absurd (name_of_find? found) other
  · exact (isPassive_runList place).bind fun _ => .pure _
  · exact .throw _

/-- A tool that runs is atomic. -/
theorem run_run (name : Text) (tree : s.disk.IsTree)
    (proper : (Json.obj arguments).isProper = true)
    (unused : IsUnused env s.disk place (env.freshId (s.drawn + 1))) :
    ∃ outcome t, (run place name arguments).run env s = (outcome, t) ∧
      IsAtomic env s.disk (env.freshId (s.drawn + 1)) place name arguments (!outcome.isOk)
        t.disk := by
  by_cases named : name = createSpell.name
  · subst named
    obtain ⟨t, notes, log, rfl⟩ : ∃ t, (note .info .server "tool call"
        [("tool", .str createSpell.name)]).run env s = (.ok (), t) ∧ s.Logs t := ⟨_, rfl, _, rfl⟩
    rw [run, run_bind, notes, find?_name]
    dsimp only
    rcases run_runCreate (s := { s with log }) tree proper unused with
      ⟨texts, t, creates, created⟩ | ⟨failure, t, fails, same⟩
    · refine ⟨_, t, creates, fun idle => ?_, fun _ _ => created⟩
      exact absurd idle (by simp [Except.isOk, Except.toBool])
    · refine ⟨_, t, fails, fun _ => same, fun fine => ?_⟩
      exact absurd fine (by simp [Except.isOk, Except.toBool])
  · refine ⟨_, _, Prod.mk.eta.symm, ?_⟩
    rw [(isPassive_run named env s).1]
    exact isAtomic_of_same (.inr named)

/-- Every call of a tool gives an answer. If the answer is an error, or the call is not of the tool
that creates spells, then every file is as it was and there is no other file. Otherwise one spell
was created under a fresh identifier, behind those of the book, and no other file was changed or
left behind. Creating itself, when it fails, leaves all files as they were, too. -/
theorem call_atomic (tree : s.disk.IsTree) (proper : (Json.obj arguments).isProper = true)
    (unused : IsUnused env s.disk place (env.freshId (s.drawn + 1))) (name : Text) :
    (∃ answer t, (call place name arguments).run env s = (.ok answer, t) ∧
      IsAtomic env s.disk (env.freshId (s.drawn + 1)) place name arguments answer.isError t.disk) ∧
    ∀ failure t, (runCreate place arguments).run env s = (.error failure, t) →
      ∀ r, s.disk.SameFile t.disk r := by
  constructor
  · rw [call]
    cases refusal? name arguments with
    | some complaint => exact ⟨_, s, rfl, isAtomic_of_same (.inl rfl)⟩
    | none =>
      obtain ⟨outcome, t, runs, atomic⟩ := run_run name tree proper unused
      dsimp only
      rw [run_tryCatch, run_bind, runs]
      cases outcome with
      | ok texts => exact ⟨_, t, rfl, atomic⟩
      | error failure => exact ⟨_, t, rfl, atomic⟩
  · intro failure t fails
    rcases run_runCreate tree proper unused with ⟨texts, u, creates, -⟩ | ⟨other, u, fails', same⟩
    · exact absurd (fails.symm.trans creates) (by simp)
    · obtain ⟨-, rfl⟩ := Prod.mk.inj (fails.symm.trans fails')
      exact same

/-- A spell that stands beside the sample spell. -/
def neighbour : Spell :=
  { Spell.sample with id := "7d444840-9dc0-11d1-b245-5ffdce74fad3", name := "say-nothing" }

/-- The arguments of the sample spell with an identifier that is taken. -/
def sampleArguments : Members := [("id", .str neighbour.id), ("name", .str Spell.sample.name),
  ("description", .str Spell.sample.description), ("inputSchema", .obj Spell.sample.inputSchema),
  ("outputSchema", .obj []), ("action", Spell.wireAction Spell.sample.action)]

/-- A file with the other spell. -/
def neighbourState : State := State.holding (Json.pretty (.arr [neighbour.wire]))

/-- The sample spell is created behind another one, under a fresh identifier. -/
theorem call_atomic_sample :
    ∃ answer t, (call (some "book.json") createSpell.name sampleArguments).run Env.sample
        neighbourState = (.ok answer, t) ∧ answer.isError = false ∧
      HasCreated Env.sample neighbourState.disk Spell.sample.id (some "book.json") sampleArguments
        t.disk := by
  have keys : ((loaded Env.sample.rooms.book (neighbourState.disk.contentAt Env.sample.here
      (pathOf Env.sample (some "book.json")))).map fun before => Entries.keys before.book)
        = .ok [neighbour.id] := by decide +kernel
  have fine : (((call (some "book.json") createSpell.name sampleArguments).run Env.sample
      neighbourState).1.map Answer.isError) = .ok false := by decide +kernel
  have unused : IsUnused Env.sample neighbourState.disk (some "book.json") Spell.sample.id := by
    intro reading loads
    rw [loads] at keys
    have only : Entries.keys reading.book = [neighbour.id] := Except.ok.inj keys
    rw [only]
    decide
  obtain ⟨⟨answer, t, calls, atomic⟩, -⟩ := call_atomic (s := neighbourState)
    (State.isTree_holding _)
    (show (Json.obj sampleArguments).isProper = true by decide +kernel) unused createSpell.name
  rw [calls] at fine
  have error : answer.isError = false := Except.ok.inj fine
  exact ⟨answer, t, calls, error, atomic.created error rfl⟩

end Grimoire.Tool
