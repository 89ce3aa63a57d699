import Grimoire.Proofs.Command.Generating
import Grimoire.Proofs.Spell.Warnings

/-!
# No failure that is to be reported gets out

Acts fail only for certain causes (`Act.FailsOnly`). What a command prints fails only for causes of
printing, and what it writes and answers fails only for causes that are not reported
(`Act.IsUnreported`). An act that reports the others is of that kind (`Command.isUnreported_orReport`),
and so is every command (`Command.isUnreported_run`).
-/

namespace Grimoire

/-- Whether a failure is one of printing: a mark that makes no sense, or what cannot be encoded. -/
inductive Failure.IsOfPrinting : Failure → Prop
  | markup (fault : MarkupFault) : IsOfPrinting (.markup fault)
  | unencodable (error : Utf8.EncodeError) : IsOfPrinting (.unencodable error)

theorem Failure.IsOfPrinting.isReported {failure : Failure} (printing : failure.IsOfPrinting) :
    failure.isReported = false := by
  cases printing <;> rfl

namespace Act

variable {α β : Type} {allowed other : Failure → Prop}

/-- Whether an act fails only for certain causes. -/
def FailsOnly (allowed : Failure → Prop) (act : Act α) : Prop :=
  ∀ env s failure t, act.run env s = (.error failure, t) → allowed failure

namespace FailsOnly

variable {act : Act α} {next : α → Act β}

protected theorem mono (h : FailsOnly allowed act) (more : ∀ failure, allowed failure → other failure) :
    FailsOnly other act := fun env s failure t failed => more failure (h env s failure t failed)

protected theorem of_ok (h : ∀ env s, ((act.run env s).1).isOk = true) : FailsOnly allowed act := by
  intro env s failure t failed
  have ok := h env s
  rw [failed] at ok
  cases ok

protected theorem pure (a : α) : FailsOnly allowed (pure a) := .of_ok fun _ _ => rfl

protected theorem throw {failure : Failure} (h : allowed failure) :
    FailsOnly allowed (throw failure : Act α) := by
  intro env s other t failed
  obtain ⟨same, -⟩ := Prod.mk.inj failed
  obtain rfl := Except.error.inj same
  exact h

protected theorem bind (first : FailsOnly allowed act) (rest : ∀ a, FailsOnly allowed (next a)) :
    FailsOnly allowed (act >>= next) := by
  intro env s failure t failed
  rcases run_bind_eq_error.mp failed with failed | ⟨a, u, -, failed⟩
  · exact first env s failure t failed
  · exact rest a env u failure t failed

protected theorem ofExcept {x : Except Failure α} (h : ∀ failure, x = .error failure → allowed failure) :
    FailsOnly allowed (ofExcept x) := by
  cases x with
  | error failure => exact .throw (h failure rfl)
  | ok a => exact .pure a

protected theorem readEnv : FailsOnly allowed Act.env := .of_ok fun _ _ => rfl

protected theorem state : FailsOnly allowed Act.state := .of_ok fun _ _ => rfl

protected theorem update (f : State → State) : FailsOnly allowed (update f) := .of_ok fun _ _ => rfl

protected theorem note (level : Level) (part : Part) (message : Text) (fields : Members) :
    FailsOnly allowed (note level part message fields) := .of_ok fun _ _ => rfl

protected theorem drawId : FailsOnly allowed drawId := .of_ok fun _ _ => rfl

protected theorem takeInput : FailsOnly allowed takeInput := .of_ok fun _ _ => rfl

protected theorem attempt (act : Act α) : FailsOnly allowed (attempt act) := .of_ok fun _ _ => rfl

protected theorem orRemove (r : Route) (first : FailsOnly allowed act) :
    FailsOnly allowed (orRemove r act) := by
  intro env s failure t failed
  obtain ⟨u, failed, -⟩ := run_orRemove_eq_error.mp failed
  exact first env s failure u failed

/-- What an act fails with does not matter if it is handled. -/
protected theorem tryCatch {handle : Failure → Act α}
    (rest : ∀ failure, FailsOnly allowed (handle failure)) : FailsOnly allowed (tryCatch act handle) := by
  intro env s failure t failed
  simp only [run, tryCatch, tryCatchThe, MonadExceptOf.tryCatch] at failed
  rcases ran : act env s with ⟨other | a, u⟩ <;> rw [ran] at failed
  · exact rest other env u failure t failed
  · cases failed

protected theorem forM {items : List β} {f : β → Act Unit} (each : ∀ item, FailsOnly allowed (f item)) :
    FailsOnly allowed (items.forM f) := by
  induction items with
  | nil => exact .pure _
  | cons item items ih => exact (each item).bind fun _ => ih

protected theorem mapM {items : List β} {f : β → Act α} (each : ∀ item, FailsOnly allowed (f item)) :
    FailsOnly allowed (items.mapM f) := by
  induction items with
  | nil => exact .pure _
  | cons item items ih =>
    rw [List.mapM_cons]
    exact (each item).bind fun _ => ih.bind fun _ => .pure _

protected theorem encode (t : Text) : FailsOnly Failure.IsOfPrinting (encode t) := by
  unfold Act.encode
  cases Utf8.encode t with
  | none => exact .throw (.unencodable _)
  | some bytes => exact .pure bytes

protected theorem print (t : Text) : FailsOnly Failure.IsOfPrinting (print t) :=
  ((FailsOnly.encode t).bind fun _ => .pure _).bind fun _ => .update _

end FailsOnly

/-- Whether an act fails only for causes that are not reported. -/
def IsUnreported (act : Act α) : Prop := FailsOnly (fun failure => failure.isReported = false) act

namespace IsUnreported

variable {act : Act α}

protected theorem throw {failure : Failure} (h : failure.isReported = false) :
    IsUnreported (throw failure : Act α) := FailsOnly.throw h

protected theorem of_printing (h : FailsOnly Failure.IsOfPrinting act) : IsUnreported act :=
  h.mono fun _ printing => printing.isReported

/-- What stands in the way on the disk is not reported. -/
protected theorem of_disk (h : FailsOnly (fun failure => ∃ e, failure = .disk e) act) :
    IsUnreported act := by
  refine h.mono ?_
  rintro failure ⟨e, rfl⟩
  rfl

protected theorem ask (question : Disk → Route → Except DiskError α) : IsUnreported (ask question) := by
  refine .of_disk fun env s failure t failed => ?_
  rw [run_ask] at failed
  cases asked : question s.disk env.here with
  | error e => exact ⟨e, by simpa [asked, Except.mapError, eq_comm] using (Prod.mk.inj failed).1⟩
  | ok a => simp [asked, Except.mapError] at failed

protected theorem change (step : Disk → Route → Except DiskError Disk) : IsUnreported (change step) := by
  refine .of_disk fun env s failure t failed => ?_
  simp only [run, change] at failed
  cases stepped : step s.disk env.here with
  | error e => exact ⟨e, by simpa [stepped, eq_comm] using (Prod.mk.inj failed).1⟩
  | ok disk => simp [stepped] at failed

protected theorem makeFolders (p : Path) : IsUnreported (makeFolders p) := by
  refine .of_disk fun env s failure t failed => ?_
  rw [run_makeFolders] at failed
  cases made : (s.disk.makeFolders env.here p.anchor p.names.reverse).1 with
  | error e => exact ⟨e, by simpa [made, Except.mapError, eq_comm] using (Prod.mk.inj failed).1⟩
  | ok route => simp [made, Except.mapError] at failed

protected theorem encode (t : Text) : IsUnreported (encode t) := .of_printing (.encode t)

protected theorem print (t : Text) : IsUnreported (print t) := .of_printing (.print t)

protected theorem writeText (p : Path) (t : Text) : IsUnreported (writeText p t) :=
  (IsUnreported.change _).bind fun _ => (IsUnreported.encode t).bind fun _ => IsUnreported.change _

end IsUnreported

end Act

open Act

/-! ## Bundles -/

namespace Bundle

theorem isUnreported_generate (s : Spell) : IsUnreported (generate s) := by
  refine (FailsOnly.note _ _ _ _).bind fun _ => ?_
  dsimp only
  split
  · exact (IsUnreported.throw rfl).bind fun _ => .pure _
  · exact .pure _

theorem isUnreported_writeEntries (folder : Path) (entries : List (Text × Text)) :
    IsUnreported (writeEntries folder entries) := by
  induction entries with
  | nil => exact .pure _
  | cons entry entries ih =>
    refine (FailsOnly.ofExcept fun failure refused => ?_).bind fun p =>
      (IsUnreported.writeText p _).bind fun _ => ih
    unfold entryPath at refused
    split at refused
    · cases refused
    · obtain rfl := Except.error.inj refused
      rfl

theorem isUnreported_makeFolderBeside (target : Route) : IsUnreported (makeFolderBeside target) :=
  FailsOnly.state.bind fun _ => (IsUnreported.change _).bind fun _ => .pure _

theorem isUnreported_clearFolder (target : Route) : IsUnreported (clearFolder target) := by
  refine FailsOnly.state.bind fun s => ?_
  split
  · exact .pure _
  · exact .throw rfl
  · exact .update _

theorem isUnreported_stage (route : Route) (bundle : Bundle) : IsUnreported (stage route bundle) :=
  (isUnreported_makeFolderBeside route).bind fun beside => .orRemove beside <|
    (isUnreported_writeEntries _ _).bind fun _ => (isUnreported_clearFolder route).bind fun _ =>
      IsUnreported.change _

theorem isUnreported_writeFolder (target : Path) (bundle : Bundle) (force : Bool) :
    IsUnreported (writeFolder target bundle force) := by
  rw [writeFolder_eq]
  refine FailsOnly.readEnv.bind fun env => ?_
  split
  · exact .throw rfl
  · refine (IsUnreported.ask _).bind fun isTaken => ?_
    split
    · exact .throw rfl
    · exact (IsUnreported.makeFolders _).bind fun _ => (isUnreported_stage _ _).bind fun _ => .pure _

/-- An entry that cannot be a member of an archive is not reported. -/
theorem members_unreported {entries : List (Text × Text)} {failure : Failure}
    (failed : (members entries).2 = .error failure) : failure.isReported = false := by
  induction entries with
  | nil => cases failed
  | cons entry entries ih =>
    rw [members] at failed
    cases first : member entry with
    | ok m =>
      rw [first] at failed
      exact ih failed
    | error other =>
      rw [first] at failed
      obtain rfl := Except.error.inj failed
      simp only [member] at first
      split at first
      · split at first
        · obtain rfl := Except.error.inj first
          rfl
        · obtain rfl := Except.error.inj first
          rfl
        · split at first
          · obtain rfl := Except.error.inj first
            rfl
          · cases first
      · obtain rfl := Except.error.inj first
        rfl

theorem isUnreported_writeArchive (folder : Path) (bundle : Bundle) (name : Option Text) :
    IsUnreported (writeArchive folder bundle name) := by
  rw [writeArchive_eq]
  have puts (p : Path) (bytes : Bytes) : IsUnreported (putFile p bytes) :=
    (IsUnreported.change _).bind fun _ => IsUnreported.change _
  exact (IsUnreported.makeFolders folder).bind fun _ => (puts _ _).bind fun _ =>
    (FailsOnly.ofExcept fun _ => members_unreported).bind fun _ => (puts _ _).bind fun _ => .pure _

end Bundle

/-! ## Books -/

namespace Json

mutual

theorem stop?_unreported {room : Nat} {v : Json} {failure : Failure}
    (stop : stop? room v = some failure) : failure.isReported = false := by
  cases room with
  | zero =>
    have : some Failure.tooDeep = some failure := by rw [← stop]; cases v <;> rfl
    cases this
    rfl
  | succ room =>
    cases v with
    | arr items =>
      have stop : stopItems? room items = some failure := stop
      exact stopItems?_unreported stop
    | obj members =>
      have stop : stopMembers? room members = some failure := stop
      exact stopMembers?_unreported stop
    | _ => cases stop

theorem stopItems?_unreported {room : Nat} {items : List Json} {failure : Failure}
    (stop : stopItems? room items = some failure) : failure.isReported = false := by
  cases items with
  | nil => cases stop
  | cons v rest =>
    rcases Option.or_eq_some_iff.mp stop with stop | ⟨-, stop⟩
    · exact stop?_unreported stop
    · exact stopItems?_unreported stop

theorem stopMembers?_unreported {room : Nat} {members : List (Text × Json)} {failure : Failure}
    (stop : stopMembers? room members = some failure) : failure.isReported = false := by
  cases members with
  | nil => cases stop
  | cons m rest =>
    rw [stopMembers?] at stop
    split at stop
    · rcases Option.or_eq_some_iff.mp stop with stop | ⟨-, stop⟩
      · exact stop?_unreported stop
      · exact stopMembers?_unreported stop
    · obtain rfl := Option.some.inj stop
      rfl

end

end Json

/-- What keeps a spell from the wire is not reported. -/
theorem Spell.wire?_unreported {s : Spell} {failure : Failure} (failed : s.wire? = .error failure) :
    failure.isReported = false := by
  unfold Spell.wire? at failed
  split at failed
  · rename_i stop
    obtain rfl := Except.error.inj failed
    rcases Option.or_eq_some_iff.mp stop with stop | ⟨-, stop⟩ <;>
      exact Json.stopItems?_unreported stop
  · cases failed

namespace Book

theorem isUnreported_loadFrom (p : Path) : IsUnreported (loadFrom p) := by
  refine FailsOnly.readEnv.bind fun env => FailsOnly.state.bind fun s => ?_
  cases content : found env.rooms.book (s.disk.contentAt env.here p) with
  | error failure =>
    refine .throw ?_
    unfold found at content
    split at content
    · split at content
      · unfold foundInText at content
        split at content
        · cases content
        · cases content
        · cases content
        · obtain rfl := Except.error.inj content
          rfl
      · cases content
    · cases content
    · split at content
      · obtain rfl := Except.error.inj content
        rfl
      · cases content
  | ok what =>
    cases what with
    | nothing => exact .pure _
    | unreadable error => exact (FailsOnly.note _ _ _ _).bind fun _ => .pure _
    | notArray => exact (FailsOnly.note _ _ _ _).bind fun _ => .pure _
    | items items =>
      exact (FailsOnly.forM fun _ => (FailsOnly.note _ _ _ _).bind fun _ =>
        FailsOnly.note _ _ _ _).bind fun _ => .pure _

theorem mapM_wire?_unreported {spells : List Spell} {failure : Failure}
    (failed : spells.mapM Spell.wire? = .error failure) : failure.isReported = false := by
  induction spells with
  | nil => cases failed
  | cons s rest ih =>
    rw [List.mapM_cons] at failed
    cases first : s.wire? with
    | error f =>
      rw [first] at failed
      obtain rfl := Except.error.inj failed
      exact Spell.wire?_unreported first
    | ok wire =>
      rw [first] at failed
      cases others : rest.mapM Spell.wire? with
      | error f =>
        rw [others] at failed
        exact ih (others.trans failed)
      | ok wires =>
        rw [others] at failed
        cases failed

theorem text_unreported {book : Book} {failure : Failure} (failed : text book = .error failure) :
    failure.isReported = false := by
  unfold text at failed
  split at failed
  · rename_i wired
    obtain rfl := Except.error.inj failed
    exact mapM_wire?_unreported wired
  · split at failed
    · cases failed
    · obtain rfl := Except.error.inj failed
      rfl

theorem isUnreported_save (place : Option Text) (book : Book) : IsUnreported (save place book) := by
  have beside (p : Path) : IsUnreported (makeBeside p) :=
    FailsOnly.readEnv.bind fun _ => FailsOnly.state.bind fun _ =>
      (IsUnreported.change _).bind fun _ => .pure _
  have saves (p : Path) : IsUnreported (saveTo p book) :=
    (IsUnreported.makeFolders _).bind fun _ =>
      (FailsOnly.ofExcept fun _ => text_unreported).bind fun t => (beside p).bind fun temporary =>
        (FailsOnly.orRemove temporary ((IsUnreported.encode t).bind fun _ =>
          (FailsOnly.update _).bind fun _ => IsUnreported.change _)).bind fun _ => .note _ _ _ _
  exact FailsOnly.readEnv.bind fun _ => (saves _).bind fun _ => .pure _

end Book

/-! ## Commands -/

namespace Command

theorem failsOnly_printLines (lines : Except MarkupFault (List Text)) :
    FailsOnly Failure.IsOfPrinting (printLines lines) := by
  cases lines with
  | error fault => exact .throw (.markup fault)
  | ok lines => exact .print _

theorem failsOnly_say (t : Text) : FailsOnly Failure.IsOfPrinting (say t) :=
  FailsOnly.readEnv.bind fun _ => failsOnly_printLines _

theorem failsOnly_printTable (table : Table) : FailsOnly Failure.IsOfPrinting (printTable table) :=
  FailsOnly.readEnv.bind fun _ => failsOnly_printLines _

theorem failsOnly_report (failure : Failure) : FailsOnly Failure.IsOfPrinting (report failure) := by
  unfold report
  split
  · exact failsOnly_say _
  · exact failsOnly_printTable _

theorem isUnreported_say (t : Text) : IsUnreported (say t) := .of_printing (failsOnly_say t)

theorem isUnreported_printTable (table : Table) : IsUnreported (printTable table) :=
  .of_printing (failsOnly_printTable table)

theorem isUnreported_printLine (t : Text) : IsUnreported (printLine t) :=
  (IsUnreported.print t).bind fun _ => IsUnreported.print _

theorem warnings_unreported {s : Spell} {failure : Failure} (failed : s.warnings = .error failure) :
    failure.isReported = false := by
  cases action : s.action with
  | script code =>
    rw [Spell.warnings_script action] at failed
    cases failed
  | http r =>
    by_cases searchable : r.placeholders = [] ∨ ∀ kind, ¬s.properties.IsUnsearchable kind
    · rw [Spell.warnings_searchable action searchable] at failed
      cases failed
    · obtain ⟨some, kind, unsearchable⟩ :
          r.placeholders ≠ [] ∧ ∃ kind, s.properties.IsUnsearchable kind := by
        simpa using searchable
      rw [Spell.warnings_unsearchable action some unsearchable] at failed
      obtain rfl := Except.error.inj failed
      rfl

theorem isUnreported_sayWarnings (s : Spell) : IsUnreported (sayWarnings s) :=
  (FailsOnly.ofExcept fun _ => warnings_unreported).bind fun _ => .forM fun _ => isUnreported_say _

/-- Reporting is what keeps failures that are reported from getting out. -/
theorem isUnreported_orReport {α : Type} {act : Act α} {next : α → Act Nat}
    (rest : ∀ a, IsUnreported (next a)) : IsUnreported (orReport act next) := by
  refine (FailsOnly.attempt act).bind fun outcome => ?_
  cases outcome with
  | ok a => exact rest a
  | error failure =>
    dsimp only
    split
    · exact (IsUnreported.of_printing (failsOnly_report failure)).bind fun _ => .pure 1
    · next other => exact .throw (by simpa using other)

theorem digestOf_unreported {bundle : Bundle} {failure : Failure}
    (failed : digestOf bundle = .error failure) : failure.isReported = false := by
  unfold digestOf at failed
  split at failed
  · cases failed
  · obtain rfl := Except.error.inj failed
    rfl

theorem isUnreported_confirm (question : Text) (lines : List Text) :
    IsUnreported (confirm question lines) := by
  induction lines with
  | nil => exact (IsUnreported.print _).bind fun _ => .pure _
  | cons line lines ih =>
    refine (IsUnreported.print _).bind fun _ => ?_
    dsimp only
    split
    · exact .pure _
    · split
      · exact .pure _
      · exact (IsUnreported.print _).bind fun _ => ih

theorem isUnreported_inputLines : IsUnreported inputLines := by
  refine FailsOnly.takeInput.bind fun bytes => (FailsOnly.ofExcept fun failure failed => ?_).bind
    fun _ => .pure _
  unfold Source.localText at failed
  split at failed
  · cases failed
  · obtain rfl := Except.error.inj failed
    rfl

/-- A tool answers whatever it fails with. -/
theorem isUnreported_call (place : Option Text) (name : Text) (arguments : Members) :
    IsUnreported (Tool.call place name arguments) := by
  unfold Tool.call
  split
  · exact .pure _
  · exact .tryCatch fun _ => .pure _

theorem isUnreported_takeAll (place : Option Text) (c : Conversation) (messages : List Members) :
    IsUnreported (Conversation.takeAll place c messages) := by
  have answers (c : Conversation) (id : Json) (method : Text) (params : Members) :
      IsUnreported (Conversation.answer place c id method params) := by
    unfold Conversation.answer
    split
    · exact .pure _
    split
    · exact .pure _
    split
    · exact .pure _
    split
    · exact .pure _
    split
    · exact (isUnreported_call _ _ _).bind fun _ => .pure _
    · exact .pure _
  have takes (c : Conversation) (message : Members) :
      IsUnreported (Conversation.take place c message) := by
    unfold Conversation.take
    dsimp only
    split
    · exact .pure _
    · exact (answers _ _ _ _).bind fun _ => .pure _
  induction messages generalizing c with
  | nil => exact .pure _
  | cons message messages ih =>
    exact (takes c message).bind fun taken => (ih taken.2).bind fun _ => .pure _

theorem isUnreported_reportUnwritten {failure : Failure} (h : failure.isReported = false) :
    IsUnreported (reportUnwritten failure) := by
  unfold reportUnwritten
  split
  · exact (isUnreported_say _).bind fun _ => .pure 1
  · exact .throw h

theorem isUnreported_reportWritten (folder : Path) (bundle : Bundle) (name : Text)
    (alsoArchive : Bool) (written : List Path) :
    IsUnreported (reportWritten folder bundle name alsoArchive written) := by
  have row (p : Path) : IsUnreported (fileRow bundle p) :=
    (IsUnreported.encode _).bind fun _ => .pure _
  have archive : IsUnreported (archiveRows folder bundle name alsoArchive) := by
    unfold archiveRows
    split
    · exact (Bundle.isUnreported_writeArchive _ _ _).bind fun _ => .pure _
    · exact .pure _
  exact (FailsOnly.mapM row).bind fun _ => archive.bind fun _ =>
    (isUnreported_printTable _).bind fun _ => .pure 0

theorem isUnreported_generateSpell (out : Text) (alsoArchive force : Bool) (new : Spell) :
    IsUnreported (generateSpell out alsoArchive force new) := by
  refine (isUnreported_sayWarnings new).bind fun _ =>
    (Bundle.isUnreported_generate new).bind fun bundle => ?_
  intro env s failure t failed
  rw [run_bind, run_attempt] at failed
  rcases writes : (Bundle.writeFolder ((Path.ofText out).below new.name) bundle force).run env s
    with ⟨other | written, u⟩ <;> rw [writes] at failed
  · exact isUnreported_reportUnwritten (Bundle.isUnreported_writeFolder _ _ _ env s other u writes)
      env u failure t failed
  · exact isUnreported_reportWritten _ _ _ _ written env u failure t failed

theorem isUnreported_runClear (isSure : Bool) (place : Option Text) :
    IsUnreported (runClear isSure place) := by
  refine FailsOnly.readEnv.bind fun env => ?_
  have clears (isConfirmed : Option Bool) : IsUnreported (do
      if isConfirmed = some true then
        Book.clear (Book.pathOf env place)
        say ("[green]Cleared:[/green] " ++ (Book.pathOf env place).text)
        return 0
      else
        Act.print "Aborted.\n"
        return 1) := by
    split
    · exact (IsUnreported.change _).bind fun _ => (isUnreported_say _).bind fun _ => .pure 0
    · exact (IsUnreported.print _).bind fun _ => .pure 1
  cases isSure with
  | true => exact (FailsOnly.pure _).bind clears
  | false => exact isUnreported_inputLines.bind fun _ => (isUnreported_confirm _ _).bind clears

theorem isUnreported_runServe (place : Option Text) : IsUnreported (runServe place) :=
  isUnreported_inputLines.bind fun _ => FailsOnly.readEnv.bind fun _ =>
    ((FailsOnly.readEnv.bind fun _ => .note _ _ _ _).bind fun _ =>
      isUnreported_takeAll _ _ _).bind fun _ =>
    (FailsOnly.forM fun _ => isUnreported_printLine _).bind fun _ => .pure 0

/-- No command ends with a failure that is to be reported. -/
theorem isUnreported_run (command : Command) : IsUnreported (run command) := by
  cases command with
  | validate source =>
    exact isUnreported_orReport fun s => (isUnreported_sayWarnings s).bind fun _ =>
      (isUnreported_say _).bind fun _ => .pure 0
  | generate source out alsoArchive force =>
    exact isUnreported_orReport (isUnreported_generateSpell out alsoArchive force)
  | digest source expected =>
    refine isUnreported_orReport fun s => (Bundle.isUnreported_generate s).bind fun bundle => ?_
    split
    · exact (isUnreported_say _).bind fun _ => .pure 1
    · exact (FailsOnly.ofExcept fun _ => digestOf_unreported).bind fun d =>
        (isUnreported_printLine d).bind fun _ => .pure 0
  | add source force place =>
    exact isUnreported_orReport fun saved => (isUnreported_sayWarnings saved.1).bind fun _ =>
      (isUnreported_say _).bind fun _ => .pure 0
  | list place =>
    refine FailsOnly.readEnv.bind fun env => (Book.isUnreported_loadFrom _).bind fun reading =>
      (isUnreported_printTable _).bind fun _ => ?_
    dsimp only
    split
    · exact (isUnreported_say _).bind fun _ => .pure 0
    · exact .pure 0
  | display key place =>
    exact isUnreported_orReport fun found => (FailsOnly.ofExcept fun _ => Spell.wire?_unreported).bind
      fun _ => (isUnreported_printLine _).bind fun _ => .pure 0
  | remove key place =>
    exact isUnreported_orReport fun found => (Book.isUnreported_save _ _).bind fun _ =>
      (isUnreported_say _).bind fun _ => .pure 0
  | clear isSure place => exact isUnreported_runClear isSure place
  | examples => exact (isUnreported_printTable _).bind fun _ => .pure 0
  | new model out =>
    refine FailsOnly.drawId.bind fun id => isUnreported_orReport fun candidate => ?_
    split
    · exact (IsUnreported.writeText _ _).bind fun _ => (isUnreported_say _).bind fun _ => .pure 0
    · exact (isUnreported_printLine _).bind fun _ => .pure 0
  | serve place => exact isUnreported_runServe place

end Command

end Grimoire
