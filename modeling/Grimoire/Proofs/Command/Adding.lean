import Grimoire.Proofs.Book.Names
import Grimoire.Proofs.Book.Place
import Grimoire.Proofs.Book.Sample

/-!
# Adding is all or nothing

The command that adds a spell ends with code 0 only if the spell is in the book that loads
afterwards; otherwise every file is as it was, or the spell was saved and what is reported about it
cannot be printed (`Command.runAdd_atomic`). The report comes after the saving, so a schema that
cannot be searched for placeholders, or marks in a text of the spell, end the command with a failure
although the file has been written (`Command.runAdd_unreported`).
-/

namespace Grimoire

/-- Whether the same file or none lies at a route on two disks. -/
def Disk.SameFile (d e : Disk) (r : Route) : Prop :=
  ∀ content, e.find? r = some (.file content) ↔ d.find? r = some (.file content)

theorem Disk.Adds.sameFile {d e : Disk} (adds : Disk.Adds d e) (r : Route) : d.SameFile e r :=
  fun content => ⟨adds.folders r content, adds.kept r _⟩

namespace Book

open Act

/-- Saving that fails leaves every file as it was, and no other file. -/
theorem sameFile_unsaved {p : Path} {book : Book} {env : Env} {s u : State} {failure : Failure}
    (tree : s.disk.IsTree) (h : (saveTo p book).run env s = (.error failure, u)) (r : Route) :
    s.disk.SameFile u.disk r := by
  have same := same_of_run_saveTo_eq_error tree h
  have adds := (Disk.adds_makeFolders (d := s.disk) env.here p.anchor p.parent.names.reverse).1
  intro content
  rw [same r]
  exact adds.sameFile r content

/-- Saving leaves every file as it was but the one that the path leads to, and no other file. -/
theorem sameFile_saved {p : Path} {book : Book} {env : Env} {s u : State} (tree : s.disk.IsTree)
    (h : (saveTo p book).run env s = (.ok (), u)) {r : Route}
    (other : r ≠ Disk.resolve env.here p) : s.disk.SameFile u.disk r := by
  obtain ⟨-, bytes, writes⟩ := run_saveTo_eq_ok h
  have adds := (Disk.adds_makeFolders (d := s.disk) env.here p.anchor p.parent.names.reverse).1
  obtain ⟨target, -, located, stored⟩ := writes.stored (adds.tree tree)
  obtain rfl := Disk.locate_eq_resolve located
  intro content
  rw [stored.eq, if_neg other]
  exact adds.sameFile r content

theorem find?_normal (key : Text) (book : Book) :
    Entries.find? key (normal book) = (Entries.find? key book).map Spell.normal := by
  induction book with
  | nil => rfl
  | cons e book ih =>
    rw [normal, List.map_cons, Entries.find?, Entries.find?]
    split
    · rfl
    · exact ih

/-- A book that is saved is what loads afterwards. -/
theorem loads_saved {p : Path} {book : Book} {env : Env} {s u : State} (tree : s.disk.IsTree)
    (lawful : IsLawful book) (h : (saveTo p book).run env s = (.ok (), u)) :
    loaded env.rooms.book (u.disk.contentAt env.here p) = .ok ⟨normal book, []⟩ := by
  obtain ⟨-, bytes, writes⟩ := run_saveTo_eq_ok h
  exact writes.loaded
    ((Disk.adds_makeFolders env.here p.anchor p.parent.names.reverse).1.tree tree) lawful

end Book

namespace Command

open Act Book

variable {source : Text} {force : Bool} {place : Option Text} {env : Env} {s t u : State}

/-! ## Reports that can be printed -/

/-- Whether lines can be printed: nothing is at fault with marks in them, and they can be encoded. -/
def CanPrint (lines : Except MarkupFault (List Text)) : Prop :=
  ∃ shown, lines = .ok shown ∧ ∀ line ∈ shown, line.isEncodable = true

/-- Whether a text with marks can be printed on a console. -/
def IsSayable (rules : Markup.Rules) (t : Text) : Prop :=
  CanPrint (rules.lines Console.lineWidth .fold .plain false t)

theorem run_print_eq_ok {t : Text} :
    ((print t).run env s).1 = .ok () ↔ t.isEncodable = true := by
  constructor
  · intro prints
    rcases outcome : (print t).run env s with ⟨failure | ⟨⟩, u⟩
    · exact absurd ((congrArg Prod.fst outcome).symm.trans prints) (by simp)
    · obtain ⟨⟨⟩, v, encodes, -⟩ := run_bind_eq_ok.mp outcome
      obtain ⟨bytes, w, encoded, -⟩ := run_bind_eq_ok.mp encodes
      rw [← Utf8.isSome_encode, (run_encode_eq_ok.mp encoded).1]
      rfl
  · intro encodable
    rw [run_print encodable]

theorem isEncodable_printedLines {lines : List Text} :
    Text.isEncodable (lines.flatMap (· ++ "\n")) = true ↔ ∀ line ∈ lines, line.isEncodable = true := by
  have ending : (Text.ofString "\n").all CodePoint.isScalar = true := by decide
  simp [Text.isEncodable, List.all_flatMap, ending]

theorem run_printLines_eq_ok (lines : Except MarkupFault (List Text)) (env : Env) (s : State) :
    ((printLines lines).run env s).1 = .ok () ↔ CanPrint lines := by
  cases lines with
  | error fault => simp [printLines, run_throw, CanPrint]
  | ok lines =>
    rw [printLines, run_print_eq_ok, isEncodable_printedLines]
    simp [CanPrint]

theorem run_say_eq_ok (t : Text) (env : Env) (s : State) :
    ((say t).run env s).1 = .ok () ↔ IsSayable env.marks t := by
  rw [say, run_bind, run_env]
  exact run_printLines_eq_ok _ env s

theorem run_forM_eq_ok {α : Type} {items : List α} {f : α → Act Unit} {p : α → Prop}
    (each : ∀ item s, ((f item).run env s).1 = .ok () ↔ p item) :
    ((items.forM f).run env s).1 = .ok () ↔ ∀ item ∈ items, p item := by
  induction items generalizing s with
  | nil => simp [run_pure]
  | cons item items ih =>
    rw [List.forall_mem_cons, ← each item s]
    change ((f item >>= fun _ => items.forM f).run env s).1 = .ok () ↔ _
    rw [run_bind]
    rcases (f item).run env s with ⟨failure | ⟨⟩, t⟩
    · simp
    · simpa using ih

/-- The line about a spell that was saved. -/
def savedLine (new : Spell) (p : Path) : Text :=
  "[green]Saved:[/green] " ++ new.name ++ " (id=" ++ new.id ++ ") -> " ++ p.text

/-- What is reported after a spell was saved. -/
def reportSaved (new : Spell) (p : Path) : Act Nat := do
  sayWarnings new
  say (savedLine new p)
  return 0

/-- Whether what is reported about a spell that was saved can be printed. -/
structure IsReportable (rules : Markup.Rules) (new : Spell) (p : Path) : Prop where
  warnings : ∃ warnings, new.warnings = .ok warnings ∧
    ∀ warning ∈ warnings, IsSayable rules ("[yellow]warning:[/yellow] " ++ warning.message)
  saved : IsSayable rules (savedLine new p)

theorem run_sayWarnings_eq_ok (new : Spell) (env : Env) (s : State) :
    ((sayWarnings new).run env s).1 = .ok () ↔ ∃ warnings, new.warnings = .ok warnings ∧
      ∀ warning ∈ warnings,
        IsSayable env.marks ("[yellow]warning:[/yellow] " ++ warning.message) := by
  rw [sayWarnings, run_bind, run_ofExcept]
  cases new.warnings with
  | error failure => simp
  | ok warnings =>
    dsimp only
    rw [run_forM_eq_ok fun _ => run_say_eq_ok _ env]
    simp

theorem isPassive_reportSaved (new : Spell) (p : Path) : IsPassive (reportSaved new p) :=
  (isPassive_sayWarnings new).bind fun _ => (isPassive_say _).bind fun _ => .pure 0

theorem run_reportSaved_eq_ok {new : Spell} {p : Path} :
    ((reportSaved new p).run env s).1 = .ok 0 ↔ IsReportable env.marks new p := by
  have parts : IsReportable env.marks new p ↔ (∃ warnings, new.warnings = .ok warnings ∧
      ∀ warning ∈ warnings,
        IsSayable env.marks ("[yellow]warning:[/yellow] " ++ warning.message)) ∧
        IsSayable env.marks (savedLine new p) := ⟨fun h => ⟨h.1, h.2⟩, fun h => ⟨h.1, h.2⟩⟩
  rw [parts, ← run_sayWarnings_eq_ok new env s, reportSaved, run_bind]
  rcases (sayWarnings new).run env s with ⟨failure | ⟨⟩, t⟩
  · simp
  · rw [← run_say_eq_ok (savedLine new p) env t]
    dsimp only
    rw [run_bind]
    rcases (say (savedLine new p)).run env t with ⟨failure | ⟨⟩, u⟩
    · simp
    · simp [run_pure]

/-! ## What is to be saved -/

/-- All that is done before a spell is saved: the spell, and the book with it. -/
def prepareAdd (source : Text) (force : Bool) (place : Option Text) : Act (Spell × Book) := do
  let candidate ← Source.read source
  let book ← Book.load place
  let new ← Book.check (← identified candidate book force)
  match clash? new book, force with
  | some failure, false => throw failure
  | _, _ => return (new, book.add new)

theorem addSpell_eq (source : Text) (force : Bool) (place : Option Text) :
    addSpell source force place = (do
      let prepared ← prepareAdd source force place
      let p ← Book.save place prepared.2
      return (prepared.1, p)) := by
  simp only [addSpell, prepareAdd, bind_assoc]
  refine congrArg _ (funext fun candidate => congrArg _ (funext fun book => congrArg _
    (funext fun identified => congrArg _ (funext fun new => ?_))))
  cases clash? new book <;> cases force <;> rfl

/-- Whether the document of a source makes a book of another one with a spell in it. -/
def Prepares (env : Env) (s : State) (source : Text) (force : Bool) (place : Option Text)
    (new : Spell) (book : Book) : Prop :=
  ∃ candidate t reading, (Source.read source).run env s = (.ok candidate, t) ∧
    loaded env.rooms.book (s.disk.contentAt env.here (pathOf env place)) = .ok reading ∧
    Spell.check (underId (env.freshId (s.drawn + 1)) reading.book force candidate) = .valid new ∧
    (force = true ∨ clash? new reading.book = none) ∧ book = reading.book.add new

/-- What is done before a spell is saved leaves the disk alone. -/
theorem run_prepareAdd (source : Text) (force : Bool) (place : Option Text) (env : Env)
    (s : State) :
    (∃ new book t, (prepareAdd source force place).run env s = (.ok (new, book), t) ∧
      t.disk = s.disk ∧ Prepares env s source force place new book) ∨
    ∃ failure t, (prepareAdd source force place).run env s = (.error failure, t) ∧
      t.disk = s.disk := by
  -- Every step but the last one reads only, and where one fails the rest is not run.
  have passive := Source.isPassive_read source env s
  rw [prepareAdd, run_bind]
  rcases read : (Source.read source).run env s with ⟨failure | candidate, t⟩ <;>
    rw [read] at passive
  · exact .inr ⟨failure, t, rfl, passive.1⟩
  obtain ⟨u, loading, logs⟩ := run_load place env t
  rw [passive.1] at loading
  have disk : u.disk = s.disk := logs.disk.trans passive.1
  dsimp only
  rw [run_bind, loading]
  cases loads : loaded env.rooms.book (s.disk.contentAt env.here (pathOf env place)) with
  | error failure => exact .inr ⟨failure, u, rfl, disk⟩
  | ok reading =>
    obtain ⟨n, identifies⟩ := run_identified candidate reading.book force env u
    rw [logs.drawn, passive.2] at identifies
    dsimp only [Except.map]
    rw [run_bind, identifies]
    dsimp only
    rw [run_bind, Book.check]
    cases checked : Spell.check
        (underId (env.freshId (s.drawn + 1)) reading.book force candidate) with
    | invalid first rest => exact .inr ⟨_, _, rfl, disk⟩
    | valid new =>
      dsimp only
      rw [run_pure]
      dsimp only
      have prepares : (force = true ∨ clash? new reading.book = none) →
          Prepares env s source force place new (reading.book.add new) := fun free =>
        ⟨candidate, t, reading, read, loads, checked, free, rfl⟩
      cases clash : clash? new reading.book with
      | none => exact .inl ⟨new, _, { u with drawn := n }, rfl, disk, prepares (.inr clash)⟩
      | some failure =>
        cases force with
        | true => exact .inl ⟨new, _, { u with drawn := n }, rfl, disk, prepares (.inl rfl)⟩
        | false => exact .inr ⟨failure, { u with drawn := n }, rfl, disk⟩

/-! ## The whole command -/

/-- Whether a spell from the document of a source has been added: a book with the spell under its
identifier loads, with the normal forms of the spells, and every other file is as it was. -/
structure HasAdded (env : Env) (s : State) (source : Text) (force : Bool) (place : Option Text)
    (new : Spell) (d : Disk) : Prop where
  loads : ∃ book, Prepares env s source force place new book ∧
    loaded env.rooms.book (d.contentAt env.here (pathOf env place)) = .ok ⟨normal book, []⟩ ∧
    Entries.find? new.id (normal book) = some new.normal
  others : ∀ r ≠ Disk.resolve env.here (pathOf env place), s.disk.SameFile d r

theorem hasAdded_saved {new : Spell} {book : Book} (tree : s.disk.IsTree) (same : t.disk = s.disk)
    (prepares : Prepares env s source force place new book)
    (saved : (saveTo (pathOf env place) book).run env t = (.ok (), u)) :
    HasAdded env s source force place new u.disk := by
  obtain ⟨candidate, v, reading, read, loads, checked, free, rfl⟩ := prepares
  have proper : new.IsChecked := isChecked_of_underId (Source.isProper_of_read read) checked
  have lawful : IsLawful (reading.book.add new) := (isLawful_loaded loads).add proper
  have found : Entries.find? new.id (reading.book.add new) = some new := by
    rw [Book.add, Entries.find?_put, if_pos rfl]
  refine ⟨⟨_, ⟨candidate, v, reading, read, loads, checked, free, rfl⟩,
    loads_saved (same.symm ▸ tree) lawful saved, ?_⟩, fun r other => ?_⟩
  · rw [find?_normal, found]
    rfl
  · exact same ▸ sameFile_saved (same.symm ▸ tree) saved other

/-- A failure gives another code than 0, whether it is reported or not. -/
theorem run_orReport_of_error {α : Type} {act : Act α} (next : α → Act Nat) {failure : Failure}
    (h : act.run env s = (.error failure, t)) :
    ((orReport act next).run env s).1 ≠ .ok 0 ∧
      ((orReport act next).run env s).2.disk = t.disk := by
  rw [orReport, run_bind, run_attempt, h]
  dsimp only
  split
  · have passive := isPassive_report failure env t
    rw [run_bind]
    rcases reports : (report failure).run env t with ⟨other | ⟨⟩, u⟩ <;> rw [reports] at passive
    · exact ⟨by simp, passive.1⟩
    · exact ⟨by simp [run_pure], passive.1⟩
  · exact ⟨by simp [run_throw], rfl⟩

/-- A spell is added, or the files stay as they are. -/
theorem run_addSpell (source : Text) (force : Bool) (place : Option Text) (env : Env)
    (tree : s.disk.IsTree) :
    (∃ new t, (addSpell source force place).run env s = (.ok (new, pathOf env place), t) ∧
      HasAdded env s source force place new t.disk) ∨
    ∃ failure t, (addSpell source force place).run env s = (.error failure, t) ∧
      ∀ r, s.disk.SameFile t.disk r := by
  rw [addSpell_eq, run_bind]
  rcases run_prepareAdd source force place env s with ⟨new, book, t, prepared, same, prepares⟩ |
    ⟨failure, t, fails, same⟩
  · rw [prepared]
    dsimp only
    rw [run_bind]
    rcases saves : (Book.save place book).run env t with ⟨failure | p, u⟩
    · refine .inr ⟨failure, u, rfl, ?_⟩
      rw [← same]
      exact sameFile_unsaved (same.symm ▸ tree) (run_save_eq_error.mp saves)
    · obtain ⟨rfl, saved⟩ := run_save_eq_ok.mp saves
      exact .inl ⟨new, u, rfl, hasAdded_saved tree same prepares saved⟩
  · rw [fails]
    refine .inr ⟨failure, t, rfl, ?_⟩
    rw [same]
    exact (Disk.Adds.refl s.disk).sameFile

/-- The command that adds a spell fails and leaves all files as they are, or it saves, and then what
it reports decides on the code. -/
theorem run_runAdd (source : Text) (force : Bool) (place : Option Text) (env : Env)
    (tree : s.disk.IsTree) :
    (((runAdd source force place).run env s).1 ≠ .ok 0 ∧
      ∀ r, s.disk.SameFile ((runAdd source force place).run env s).2.disk r) ∨
    ∃ new, HasAdded env s source force place new
        ((runAdd source force place).run env s).2.disk ∧
      (((runAdd source force place).run env s).1 = .ok 0 ↔
        IsReportable env.marks new (pathOf env place)) := by
  have parts : runAdd source force place = orReport (addSpell source force place) fun saved =>
      reportSaved saved.1 saved.2 := rfl
  rw [parts]
  rcases run_addSpell source force place env tree with ⟨new, t, adds, added⟩ |
    ⟨failure, t, fails, same⟩
  · rw [orReport_of_ok adds]
    refine .inr ⟨new, ?_, run_reportSaved_eq_ok⟩
    rw [(isPassive_reportSaved new _ env t).1]
    exact added
  · obtain ⟨code, disk⟩ := run_orReport_of_error
      (fun saved : Spell × Path => reportSaved saved.1 saved.2) fails
    exact .inl ⟨code, disk.symm ▸ same⟩

/-- If the command that adds a spell ends with code 0, then the spell is in the book that loads
afterwards. Otherwise every file is as it was and there is no other file, or else the spell was
saved and what is reported about it cannot be printed. No file but that of the book is ever changed
or left behind. -/
theorem runAdd_atomic {outcome : Except Failure Nat} (tree : s.disk.IsTree)
    (runs : (runAdd source force place).run env s = (outcome, u)) :
    (outcome = .ok 0 → ∃ new, HasAdded env s source force place new u.disk) ∧
    (outcome ≠ .ok 0 → (∀ r, s.disk.SameFile u.disk r) ∨
      ∃ new, HasAdded env s source force place new u.disk ∧
        ¬IsReportable env.marks new (pathOf env place)) := by
  have cases := run_runAdd source force place env tree
  rw [runs] at cases
  rcases cases with ⟨code, same⟩ | ⟨new, added, code⟩
  · exact ⟨fun zero => absurd zero code, fun _ => .inl same⟩
  · exact ⟨fun _ => ⟨new, added⟩, fun other => .inr ⟨new, added, fun can => other (code.mpr can)⟩⟩

/-! ## A report that cannot be printed -/

/-- The state of a process that has just started, on a disk with a document in a file. -/
def documentState (t : Text) : State :=
  ⟨⟨[([Name.ofText "a.json"], .file ((Utf8.encode t).getD []))]⟩, [], 0, [], []⟩

theorem isTree_documentState (t : Text) : (documentState t).disk.IsTree :=
  Disk.isTree_of_entries fun entry member => by
    obtain rfl := List.mem_singleton.mp member
    rfl

theorem runAdd_atomic_sample :
    ((runAdd "a.json" false (some "book.json")).run Env.sample
      (documentState (Json.pretty Spell.sample.wire))).1 = .ok 0 ∧
    ∃ new, HasAdded Env.sample (documentState (Json.pretty Spell.sample.wire)) "a.json" false
      (some "book.json") new ((runAdd "a.json" false (some "book.json")).run Env.sample
        (documentState (Json.pretty Spell.sample.wire))).2.disk := by
  have code : ((runAdd "a.json" false (some "book.json")).run Env.sample
      (documentState (Json.pretty Spell.sample.wire))).1 = .ok 0 := by decide +kernel
  exact ⟨code, (runAdd_atomic (isTree_documentState _) Prod.mk.eta.symm).1 code⟩

/-- A spell with a placeholder and a schema in which placeholders cannot be looked for. -/
def unsearchable : Spell :=
  { Spell.sample with
    inputSchema := [("type", .str "object"), ("properties", .int 5)]
    action := .http ⟨"https://example.com/\x7b\x7bkey\x7d\x7d", .get, none, none⟩ }

/-- The command ends with a failure, and the file that was missing is there. -/
theorem runAdd_unreported :
    (documentState (Json.pretty unsearchable.wire)).disk.find? [Name.ofText "book.json"] = none ∧
    ((runAdd "a.json" false (some "book.json")).run Env.sample
      (documentState (Json.pretty unsearchable.wire))).1 = .error (.notSearchable "int") ∧
    ((runAdd "a.json" false (some "book.json")).run Env.sample
      (documentState (Json.pretty unsearchable.wire))).2.disk.find? [Name.ofText "book.json"] ≠ none := by
  decide +kernel

end Command

end Grimoire
