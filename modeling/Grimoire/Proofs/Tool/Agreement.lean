import Grimoire.Proofs.Spell.Storable
import Grimoire.Proofs.Tool.Creating

/-!
# Creating and adding agree

A spell can be created by a call of a tool or added from a document. The two go different ways: one
checks the arguments and then looks into the book, the other looks into the book first and finds the
identifier by what may be a name. For a candidate without an identifier both come to the same
(`Tool.prepared_agree`), so they leave the same disk and fail in the same way
(`Tool.create_agrees_add`).
-/

namespace Grimoire

/-- What is saved follows from the book and the disk. -/
theorem Book.isDiskOnly_saveTo (p : Path) (book : Book) : Act.IsDiskOnly (Book.saveTo p book) := by
  open Act in
  have beside : IsDiskOnly (makeBeside p) :=
    IsDiskOnly.readEnv.bind fun env => .readDisk
      (fun s => (IsDiskOnly.change _).bind fun _ => .pure _) fun s t same => by rw [same]
  refine (IsDiskOnly.makeFolders _).bind fun _ => (IsDiskOnly.ofExcept _).bind fun t =>
    beside.bind fun temporary => (IsDiskOnly.orRemove _ ?_).bind fun _ => .note _ _ _ _
  exact (IsDiskOnly.encode _).bind fun bytes => (IsDiskOnly.place _ _).bind fun _ => .change _

/-- The numbers in a candidate that is read have no more digits than can be written. -/
theorem Source.isWritable_of_read {source : Text} {env : Env} {s t : State} {candidate : Json}
    (h : (read source).run env s = (.ok candidate, t)) : candidate.isWritable = true := by
  obtain ⟨text, u, -, h⟩ := Act.run_bind_eq_ok.mp h
  have parsed := (Act.run_ofExcept _).symm.trans h
  have read : parse env.rooms.source source text = .ok candidate := (Prod.mk.inj parsed).1
  unfold parse at read
  split at read
  · next value =>
    exact Json.isWritable_of_read (value.trans (congrArg Except.ok (Except.ok.inj read)))
  · exact absurd read (by simp)
  · exact absurd read (by simp)

theorem Json.isWritable_put {members : Members} (writable : (obj members).isWritable = true)
    (key t : Text) : (obj (Entries.put key (.str t) members)).isWritable = true := by
  rw [isWritable_obj] at writable ⊢
  intro m member
  rcases Entries.mem_put member with rfl | member
  · rfl
  · exact writable m member

namespace Tool

open Act Book

variable {place : Option Text} {source fresh : Text} {members : Members} {book : Book} {env : Env}
  {s : State}

/-- The spell that members without an identifier make under a fresh one, unless they make none or a
spell of the book has its name. -/
def accepted (fresh : Text) (book : Book) (members : Members) : Except Failure Spell :=
  match Spell.check (.obj (Entries.put "id" (.str fresh) members)) with
  | .invalid first rest => .error (.invalid first rest)
  | .valid new =>
    match book.named? new.name with
    | some old => .error (.duplicateName new.name old.id)
    | none => .ok new

theorem erase_eq_self {key : Text} (absent : key ∉ Entries.keys members) :
    Entries.erase key members = members := by
  refine List.filter_eq_self.mpr fun e member => ?_
  have other : e.1 ≠ key := fun h => absent (List.mem_map.mpr ⟨e, member, h⟩)
  simp [other]

theorem run_check (candidate : Json) (env : Env) (s : State) :
    ∃ t, (Book.check candidate).run env s = (match Spell.check candidate with
      | .valid new => .ok new
      | .invalid first rest => .error (.invalid first rest), t) ∧ s.Logs t := by
  unfold Book.check
  cases Spell.check candidate with
  | valid new => exact ⟨s, rfl, .refl s⟩
  | invalid first rest => exact ⟨_, rfl, _, rfl⟩

/-- What is created is what is admitted. -/
theorem run_prepareCreate_eq {reading : Reading} (anonymous : Text.ofString "id" ∉ Entries.keys members)
    (writable : (Json.obj members).isWritable = true)
    (loads : loaded env.rooms.book (s.disk.contentAt env.here (pathOf env place)) = .ok reading) :
    ∃ t, (prepareCreate place members).run env s
      = ((accepted (env.freshId (s.drawn + 1)) reading.book members).map fun new =>
          (new, Bundle.ofSpell new, reading.book.add new), t) ∧ t.disk = s.disk := by
  obtain ⟨t, checks, logs⟩ := run_check
    (.obj (Entries.put "id" (.str (env.freshId (s.drawn + 1))) members)) env
    { s with drawn := s.drawn + 1 }
  obtain ⟨u, loading, logs'⟩ := run_load place env t
  have disk : t.disk = s.disk := logs.disk
  rw [disk, loads] at loading
  rw [prepareCreate, run_bind, run_drawId]
  dsimp only
  rw [Request.created, erase_eq_self anonymous, run_bind, checks, accepted]
  cases valid : Spell.check (.obj (Entries.put "id" (.str (env.freshId (s.drawn + 1))) members)) with
  | invalid first rest => exact ⟨t, rfl, disk⟩
  | valid new =>
    dsimp only
    rw [run_bind, loading]
    dsimp only [Except.map]
    cases reading.book.named? new.name with
    | some old => exact ⟨u, rfl, logs'.disk.trans disk⟩
    | none =>
      obtain ⟨v, generates, logs''⟩ := run_generate new env u
      rw [if_pos (Spell.isWritable_of_check (Json.isWritable_put writable _ _) valid)] at generates
      dsimp only
      rw [run_bind, generates]
      exact ⟨v, rfl, logs''.disk.trans (logs'.disk.trans disk)⟩

theorem underId_anonymous (anonymous : Text.ofString "id" ∉ Entries.keys members) :
    underId fresh book false (.obj members) = .obj (Entries.put "id" (.str fresh) members) := by
  have absent : Entries.hasKey "id" members = false := by
    rw [Bool.eq_false_iff, ne_eq, Entries.hasKey_iff]
    exact anonymous
  simp only [underId, absent]
  cases book.named? (((Entries.find? "name" members).map Json.describeBare).getD []) <;> rfl

/-- What is added is what is admitted. -/
theorem run_prepareAdd_eq {reading : Reading} {t : State}
    (anonymous : Text.ofString "id" ∉ Entries.keys members)
    (reads : (Source.read source).run env s = (.ok (.obj members), t))
    (loads : loaded env.rooms.book (s.disk.contentAt env.here (pathOf env place)) = .ok reading)
    (unused : env.freshId (s.drawn + 1) ∉ Entries.keys reading.book) :
    ∃ u, (Command.prepareAdd source false place).run env s
      = ((accepted (env.freshId (s.drawn + 1)) reading.book members).map fun new =>
          (new, reading.book.add new), u) ∧ u.disk = s.disk := by
  obtain ⟨disk, drawn⟩ := Source.isPassive_read source env s
  rw [reads] at disk drawn
  obtain ⟨u, loading, logs⟩ := run_load place env t
  rw [disk, loads] at loading
  obtain ⟨n, identifies⟩ := run_identified (.obj members) reading.book false env u
  have same : underId (env.freshId (u.drawn + 1)) reading.book false (.obj members)
      = .obj (Entries.put "id" (.str (env.freshId (s.drawn + 1))) members) := by
    rw [logs.drawn, drawn, underId_anonymous anonymous]
  rw [same] at identifies
  obtain ⟨v, checks, logs'⟩ := run_check
    (.obj (Entries.put "id" (.str (env.freshId (s.drawn + 1))) members)) env { u with drawn := n }
  have kept : v.disk = s.disk := logs'.disk.trans (logs.disk.trans disk)
  rw [Command.prepareAdd, run_bind, reads]
  dsimp only
  rw [run_bind, loading]
  dsimp only [Except.map]
  rw [run_bind, identifies]
  dsimp only
  rw [run_bind, checks, accepted]
  cases valid : Spell.check (.obj (Entries.put "id" (.str (env.freshId (s.drawn + 1))) members)) with
  | invalid first rest => exact ⟨v, rfl, kept⟩
  | valid new =>
    have named : new.id = env.freshId (s.drawn + 1) :=
      id_of_check_created (by rw [Request.created, erase_eq_self anonymous, valid])
    dsimp only
    rw [Command.clash?]
    cases reading.book.named? new.name with
    | some old => exact ⟨v, rfl, kept⟩
    | none =>
      have free : Entries.hasKey new.id reading.book = false := by
        rw [Bool.eq_false_iff, ne_eq, Entries.hasKey_iff, named]
        exact unused
      dsimp only
      rw [free]
      exact ⟨v, rfl, kept⟩

/-- Saving the same book on the same disk comes to the same, whatever is reported after it. -/
theorem run_save_agree {α β : Type} {t u : State} (same : t.disk = u.disk) {report : Path → Act α}
    {report' : Path → Act β} (reports : ∀ p v, ∃ a w, (report p).run env v = (.ok a, w) ∧
      w.disk = v.disk)
    (reports' : ∀ p v, ∃ b w, (report' p).run env v = (.ok b, w) ∧ w.disk = v.disk) :
    ((Book.save place book >>= report).run env t).2.disk
        = ((Book.save place book >>= report').run env u).2.disk ∧
      ∀ failure, ((Book.save place book >>= report).run env t).1 = .error failure
        ↔ ((Book.save place book >>= report').run env u).1 = .error failure := by
  have saves : ∀ v, (Book.save place book).run env v
      = (((saveTo (pathOf env place) book).run env v).1.map fun _ => pathOf env place,
        ((saveTo (pathOf env place) book).run env v).2) := by
    intro v
    rw [Book.save, run_bind, run_env]
    dsimp only
    rw [run_bind]
    rcases (saveTo (pathOf env place) book).run env v with ⟨_ | _, _⟩ <;> rfl
  obtain ⟨outcome, disk⟩ := isDiskOnly_saveTo (pathOf env place) book env t u same
  rw [run_bind, run_bind, saves, saves]
  rcases first : (saveTo (pathOf env place) book).run env t with ⟨failure | ⟨⟩, v⟩ <;>
    rcases second : (saveTo (pathOf env place) book).run env u with ⟨failure' | ⟨⟩, v'⟩ <;>
    rw [first, second] at outcome disk
  · obtain rfl := Except.error.inj outcome
    exact ⟨disk, fun other => by simp [Except.map]⟩
  · exact absurd outcome (by simp)
  · exact absurd outcome (by simp)
  · obtain ⟨a, w, reported, kept⟩ := reports (pathOf env place) v
    obtain ⟨b, w', reported', kept'⟩ := reports' (pathOf env place) v'
    dsimp only [Except.map]
    rw [reported, reported']
    exact ⟨kept.trans (disk.trans kept'.symm), fun other => by simp⟩

/-- A call that creates a spell and a command that adds the same candidate leave the same disk, and
one fails just as the other does: with the same problems if the candidate is no spell, with the same
spell in the way if its name is taken. The command reports that failure. -/
theorem create_agrees_add {reading : Reading} {t : State}
    (anonymous : Text.ofString "id" ∉ Entries.keys members)
    (reads : (Source.read source).run env s = (.ok (.obj members), t))
    (loads : loaded env.rooms.book (s.disk.contentAt env.here (pathOf env place)) = .ok reading)
    (unused : env.freshId (s.drawn + 1) ∉ Entries.keys reading.book) :
    ((runCreate place members).run env s).2.disk
        = ((Command.runAdd source false place).run env s).2.disk ∧
      (∀ failure, ((runCreate place members).run env s).1 = .error failure
        ↔ ((Command.addSpell source false place).run env s).1 = .error failure) ∧
      ∀ failure u, (Command.addSpell source false place).run env s = (.error failure, u) →
        failure.isReported = true → (Command.runAdd source false place).run env s
          = (do Command.report failure; return 1 : Act Nat).run env u := by
  have adds : ((Command.runAdd source false place).run env s).2.disk
      = ((Command.addSpell source false place).run env s).2.disk := by
    have saved : Act.SameDisk (Command.runAdd source false place)
        (Command.addSpell source false place >>= fun _ => pure 0) :=
      Command.sameDisk_orReport _ fun new env s =>
        (Command.isPassive_reportSaved new.1 new.2 env s).1
    rw [saved env s, (SameDisk.followed fun _ => .pure 0) env s]
  obtain ⟨u, creates, kept⟩ :=
    run_prepareCreate_eq anonymous (Source.isWritable_of_read reads) loads
  obtain ⟨v, prepares, kept'⟩ := run_prepareAdd_eq anonymous reads loads unused
  rw [adds, ← and_assoc]
  constructor
  · rw [runCreate_eq, Command.addSpell_eq, run_bind, run_bind, creates, prepares]
    cases accepted (env.freshId (s.drawn + 1)) reading.book members with
    | error failure => exact ⟨kept.trans kept'.symm, fun other => by simp [Except.map]⟩
    | ok new =>
      dsimp only [Except.map]
      exact run_save_agree (kept.trans kept'.symm)
        (fun p w => (logs_reportCreated new (Bundle.ofSpell new) p env w).imp fun texts h =>
          h.imp fun w' h => ⟨h.1, h.2.disk⟩)
        fun p w => ⟨_, w, rfl, rfl⟩
  · intro failure w fails reported
    rw [Command.runAdd, Command.orReport, run_bind, run_attempt, fails]
    dsimp only
    rw [if_pos reported]

/-- The arguments of the sample spell without an identifier. -/
def anonymousArguments : Members := Entries.erase "id" sampleArguments

/-- The sample spell is created and added alike. -/
theorem create_agrees_add_sample :
    let s := Command.documentState (Json.pretty (.obj anonymousArguments))
    ((runCreate (some "book.json") anonymousArguments).run Env.sample s).1.isOk = true ∧
      ((runCreate (some "book.json") anonymousArguments).run Env.sample s).2.disk
        = ((Command.runAdd "a.json" false (some "book.json")).run Env.sample s).2.disk := by
  intro s
  have reads : ((Source.read "a.json").run Env.sample s).1 = .ok (.obj anonymousArguments) := by
    decide +kernel
  have loads : loaded Env.sample.rooms.book
      (s.disk.contentAt Env.sample.here (pathOf Env.sample (some "book.json")))
        = .ok ⟨[], []⟩ := by rfl
  exact ⟨by decide +kernel,
    (create_agrees_add (by decide) (Prod.ext reads rfl) loads (by decide)).1⟩

end Tool

end Grimoire
