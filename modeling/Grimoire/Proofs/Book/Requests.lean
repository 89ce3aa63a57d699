import Grimoire.Proofs.Book.Saving
import Grimoire.Proofs.Command.Report
import Grimoire.Proofs.Source.Document

/-!
# Requests to change a book

A request is served in three stages: a plan is made, the book is loaded, and the revised book is
saved. `Request.commit` runs the three; what the program does after that only reports and does not
show on the disk (`Request.sameDisk_act`). What comes of a plan and a book is said once
(`Plan.Revises`), and the program revises a book in this way and in no other (`Plan.run_revise`).
-/

namespace Grimoire

namespace Spell

open Checked

/-- Where the identifier and the name of a spell come from. -/
theorem fields_of_check {members : Members} {s : Spell} (h : check (.obj members) = .valid s) :
    Entries.find? "id" members = some (.str s.id) ∧
      Entries.find? "name" members = some (.str s.name) := by
  obtain ⟨_, same, id, name, -⟩ := parts_of_check h
  obtain rfl := Json.obj.inj same
  obtain ⟨v, idFound, idRule⟩ := required_eq_valid.mp id
  obtain ⟨w, nameFound, nameRule⟩ := required_eq_valid.mp name
  rw [idFound, nameFound, (textWith_eq_valid.mp idRule).1, (textWith_eq_valid.mp nameRule).1]
  exact ⟨rfl, rfl⟩

theorem isObject_of_check {candidate : Json} {s : Spell} (h : check candidate = .valid s) :
    ∃ members, candidate = .obj members := by
  obtain ⟨members, rfl, -⟩ := parts_of_check h
  exact ⟨members, rfl⟩

end Spell

namespace Json

theorem isProper_put {members : Members} (proper : (obj members).isProper = true) (key t : Text) :
    (obj (Entries.put key (.str t) members)).isProper = true := by
  rw [isProper, isProperMembers_eq, Bool.and_eq_true, decide_eq_true_eq, List.all_eq_true]
    at proper ⊢
  refine ⟨Entries.nodup_keys_put proper.1, fun e member => ?_⟩
  rcases Entries.mem_put member with rfl | member
  · rfl
  · exact proper.2 e member

theorem isProper_erase {members : Members} (proper : (obj members).isProper = true) (key : Text) :
    (obj (Entries.erase key members)).isProper = true := by
  rw [isProper, isProperMembers_eq, Bool.and_eq_true, decide_eq_true_eq, List.all_eq_true]
    at proper ⊢
  refine ⟨(List.filter_sublist.map _).nodup proper.1, fun e member => ?_⟩
  exact proper.2 e (List.mem_filter.mp member).1

end Json

namespace Book

open Act Command

/-- What someone asks to be changed in a book. Arguments do not have a key twice. -/
inductive Request where
  | create (arguments : { members : Members // (Json.obj members).isProper = true })
  | add (source : Text) (force : Bool)
  | remove (key : Text)

/-- What is known of a request before the book is loaded. -/
inductive Plan where
  | create (s : Spell)
  | add (candidate : Json) (force : Bool)
  | remove (key : Text)

namespace Request

/-- The part of the program that serves a request. -/
def act (place : Option Text) : Request → Act Unit
  | create arguments => do
    let _ ← Tool.runCreate place arguments.1
    return ()
  | add source force => do
    let _ ← Command.runAdd source force place
    return ()
  | remove key => do
    let _ ← Command.runRemove key place
    return ()

/-- The arguments of a call under a new identifier. -/
def created (arguments : Members) (id : Text) : Json :=
  .obj (Entries.put "id" (.str id) (Entries.erase "id" arguments))

/-- The first stage of a request. -/
def plan : Request → Act Plan
  | create arguments => do
    let id ← drawId
    return .create (← check (created arguments.1 id))
  | add source force => do return .add (← Source.read source) force
  | remove key => return .remove key

end Request

/-- Revises a book as a plan says. -/
def Plan.revise (book : Book) : Plan → Act Book
  | .create s =>
    match book.named? s.name with
    | some old => throw (.duplicateName s.name old.id)
    | none => do
      let _ ← Bundle.generate s
      return book.add s
  | .add candidate force => do
    let s ← check (← identified candidate book force)
    match clash? s book, force with
    | some failure, false => throw failure
    | _, _ => return book.add s
  | .remove key =>
    match book.lookUp? key with
    | some s => return Entries.erase s.id book
    | none => throw (.unknownSpell key)

/-- The first and the second stage of a request, after which it has read all that it will. -/
def Request.begin (place : Option Text) (request : Request) : Act (Plan × Book) := do
  let plan ← request.plan
  return (plan, ← load place)

/-- The last stage of a request, which writes. -/
def Plan.finish (place : Option Text) (plan : Plan) (book : Book) : Act Path := do
  save place (← plan.revise book)

/-- All that a request does before it reports. -/
def Request.commit (place : Option Text) (request : Request) : Act Path := do
  let (plan, book) ← request.begin place
  plan.finish place book

/-- The question whether the file is to be deleted, which may be spared. -/
def confirmClear (isSure : Bool) (p : Path) : Act (Option Bool) :=
  if isSure then return some true
  else do confirm ("Delete " ++ p.text ++ "?") (← inputLines)

/-- All that clearing does before it reports: whether it was confirmed and the file taken away. -/
def commitClear (isSure : Bool) (place : Option Text) : Act Bool := do
  let p := pathOf (← Act.env) place
  if (← confirmClear isSure p) = some true then
    clear p
    return true
  else return false

/-- Whether a process sees the book at a place under the path `p`. -/
def Sees (place : Option Text) (here : Route) (p : Path) (env : Env) : Prop :=
  env.here = here ∧ pathOf env place = p

/-! ## Reports come last -/

/-- The disk that a request leaves is the one that it leaves before it reports. -/
theorem Request.sameDisk_act (place : Option Text) (request : Request) :
    SameDisk (request.act place) (request.commit place) := by
  cases request with
  | create arguments =>
    refine (SameDisk.followed fun _ => .pure _).trans ?_
    simp only [commit, begin, plan, Plan.finish, Plan.revise, bind_assoc, pure_bind]
    refine SameDisk.bind fun id => SameDisk.bind fun s => SameDisk.bind fun book => ?_
    cases book.named? s.name with
    | some old => exact fun _ _ => rfl
    | none =>
      rw [bind_assoc]
      exact SameDisk.bind fun bundle => SameDisk.followed fun p =>
        (IsPassive.note _ _ _ _).bind fun _ => .pure _
  | add source force =>
    have report : ∀ saved : Spell × Path, IsPassive (do
        sayWarnings saved.1
        say ("[green]Saved:[/green] " ++ saved.1.name ++ " (id=" ++ saved.1.id ++ ") -> "
          ++ saved.2.text)
        return 0) := fun saved =>
      (isPassive_sayWarnings _).bind fun _ => (isPassive_say _).bind fun _ => .pure _
    refine (SameDisk.followed fun _ => .pure _).trans
      ((sameDisk_orReport (fun _ => pure ()) fun saved env s => (report saved env s).1).trans
        ((SameDisk.followed fun _ => .pure _).trans ?_))
    simp only [addSpell, commit, begin, plan, Plan.finish, Plan.revise, bind_assoc, pure_bind]
    refine SameDisk.bind fun candidate => SameDisk.bind fun book => SameDisk.bind fun candidate =>
      SameDisk.bind fun s => ?_
    cases clash? s book <;> cases force <;>
      first | exact SameDisk.followed fun _ => .pure _ | exact fun _ _ => rfl
  | remove key =>
    refine (SameDisk.followed fun _ => .pure _).trans
      ((sameDisk_orReport (fun found => save place (Entries.erase found.2.id found.1)) ?_).trans ?_)
    · exact fun found => SameDisk.followed fun _ => (isPassive_say _).bind fun _ => .pure _
    · simp only [lookUp, commit, begin, plan, Plan.finish, Plan.revise, bind_assoc, pure_bind]
      refine SameDisk.bind fun book => ?_
      cases book.lookUp? key <;> exact fun _ _ => rfl

/-- The disk that clearing leaves is the one that it leaves before it reports. -/
theorem sameDisk_runClear (isSure : Bool) (place : Option Text) :
    SameDisk (runClear isSure place) (commitClear isSure place) := by
  have asked : runClear isSure place = (do
      let p := pathOf (← Act.env) place
      let isConfirmed ← confirmClear isSure p
      if isConfirmed = some true then
        clear p
        say ("[green]Cleared:[/green] " ++ p.text)
        return 0
      else
        Act.print "Aborted.\n"
        return 1) := by
    cases isSure
    · simp only [runClear, confirmClear, Bool.false_eq_true, if_false, bind_assoc]
    · rfl
  rw [asked, commitClear]
  refine SameDisk.bind fun env => SameDisk.bind fun isConfirmed => ?_
  split
  · refine SameDisk.bind fun _ =>
      SameDisk.trans (show SameDisk _ (pure () : Act Unit) from ?_) fun _ _ => rfl
    exact fun env s => (((isPassive_say _).bind fun _ => .pure 0) env s).1
  · exact fun env s => (((IsPassive.print _).bind fun _ => .pure 1) env s).1

/-! ## What the stages do -/

variable {env : Env} {s t u : State} {book : Book} {place : Option Text}

theorem run_check_eq_ok {candidate : Json} {new : Spell} :
    (check candidate).run env s = (.ok new, t) ↔ Spell.check candidate = .valid new ∧ t = s := by
  unfold check
  cases Spell.check candidate with
  | valid a => simp [run_pure, eq_comm]
  | invalid first rest =>
    constructor
    · intro h
      obtain ⟨⟨⟩, v, -, thrown⟩ := run_bind_eq_ok.mp h
      exact absurd thrown (by simp [run_throw])
    · rintro ⟨h, -⟩
      exact absurd h (by simp)

theorem isPassive_check (candidate : Json) : IsPassive (check candidate) := by
  unfold check
  split
  · exact .pure _
  · exact (IsPassive.note _ _ _ _).bind fun _ => .throw _

theorem run_load (place : Option Text) (env : Env) (s : State) :
    ∃ t, (load place).run env s =
        ((loaded env.rooms.book (s.disk.contentAt env.here (pathOf env place))).map Reading.book, t) ∧
      s.Logs t := by
  obtain ⟨outcome, logs⟩ := run_loadFrom (pathOf env place) env s
  refine ⟨_, ?_, logs⟩
  rw [load, run_bind, run_env]
  dsimp only
  rw [run_bind, ← outcome]
  rcases (loadFrom (pathOf env place)).run env s with ⟨_ | reading, t⟩ <;> rfl

theorem run_save_eq_ok {p : Path} :
    (save place book).run env s = (.ok p, t) ↔
      p = pathOf env place ∧ (saveTo (pathOf env place) book).run env s = (.ok (), t) := by
  rw [save, run_bind, run_env]
  dsimp only
  rw [run_bind_eq_ok]
  constructor
  · rintro ⟨⟨⟩, v, saved, last⟩
    obtain ⟨same, rfl⟩ := Prod.mk.inj ((run_pure _ _ _).symm.trans last)
    exact ⟨(Except.ok.inj same).symm, saved⟩
  · rintro ⟨rfl, saved⟩
    exact ⟨(), t, saved, rfl⟩

theorem run_save_eq_error {failure : Failure} :
    (save place book).run env s = (.error failure, t) ↔
      (saveTo (pathOf env place) book).run env s = (.error failure, t) := by
  rw [save, run_bind, run_env]
  dsimp only
  rw [run_bind_eq_error]
  constructor
  · rintro (failed | ⟨⟨⟩, v, -, last⟩)
    · exact failed
    · exact absurd last (by simp [run_pure])
  · exact .inl

/-- A candidate under the identifier of the spell that it replaces by name, else under its own, else
under a new one. -/
def underId (fresh : Text) (book : Book) (force : Bool) : Json → Json
  | .obj members =>
    match book.named? (((Entries.find? "name" members).map Json.describeBare).getD []), force with
    | some old, true => .obj (Entries.put "id" (.str old.id) members)
    | _, _ =>
      .obj (if Entries.hasKey "id" members then members else Entries.put "id" (.str fresh) members)
  | candidate => candidate

theorem run_identified (candidate : Json) (book : Book) (force : Bool) (env : Env) (s : State) :
    ∃ n, (identified candidate book force).run env s
      = (.ok (underId (env.freshId (s.drawn + 1)) book force candidate),
        { s with drawn := n }) := by
  unfold identified underId
  cases candidate with
  | obj members =>
    dsimp only
    cases book.named? (((Entries.find? "name" members).map Json.describeBare).getD []) with
    | none => exact ⟨s.drawn + 1, rfl⟩
    | some old =>
      cases force with
      | true => exact ⟨s.drawn, rfl⟩
      | false => exact ⟨s.drawn + 1, rfl⟩
  | _ => exact ⟨s.drawn, rfl⟩

/-- What a plan makes of a book: `fresh` is the identifier for a candidate that has none. -/
def Plan.Revises (fresh : Text) (book : Book) : Plan → Book → Prop
  | .create s, revised => book.named? s.name = none ∧ s.isWritable = true ∧ revised = book.add s
  | .add candidate force, revised =>
    ∃ s, Spell.check (underId fresh book force candidate) = .valid s ∧
      (force = true ∨ clash? s book = none) ∧ revised = book.add s
  | .remove key, revised => ∃ s, book.lookUp? key = some s ∧ revised = Entries.erase s.id book

theorem run_generate (new : Spell) (env : Env) (s : State) :
    ∃ t, (Bundle.generate new).run env s = (if new.isWritable then .ok (Bundle.ofSpell new)
        else .error (.unread (.tooManyDigits none)), t) ∧ s.Logs t := by
  unfold Bundle.generate
  cases new.isWritable <;> exact ⟨_, rfl, _, rfl⟩

/-- The program revises a book as the plan says, or not at all. -/
theorem Plan.run_revise (plan : Plan) (book revised : Book) (env : Env) (s : State) :
    (∃ t, (plan.revise book).run env s = (.ok revised, t)) ↔
      plan.Revises (env.freshId (s.drawn + 1)) book revised := by
  cases plan with
  | create new =>
    obtain ⟨u, generated, -⟩ := run_generate new env s
    simp only [revise, Revises]
    cases book.named? new.name with
    | some old => simp [run_throw]
    | none =>
      dsimp only
      rw [run_bind, generated]
      cases new.isWritable <;> simp [run_pure, eq_comm]
  | add candidate force =>
    obtain ⟨n, identifies⟩ := run_identified candidate book force env s
    simp only [revise, Revises]
    rw [run_bind, identifies]
    dsimp only
    constructor
    · rintro ⟨t, h⟩
      obtain ⟨new, u, checks, added⟩ := run_bind_eq_ok.mp h
      obtain ⟨checked, rfl⟩ := run_check_eq_ok.mp checks
      refine ⟨new, checked, ?_⟩
      cases clash : clash? new book <;> rw [clash] at added <;> cases force
      case some.false => exact absurd added (by simp [run_throw])
      all_goals
        obtain ⟨same, -⟩ := Prod.mk.inj ((run_pure _ _ _).symm.trans added)
        exact ⟨by simp, (Except.ok.inj same).symm⟩
    · rintro ⟨new, checked, free, rfl⟩
      refine ⟨{ s with drawn := n },
        run_bind_eq_ok.mpr ⟨new, { s with drawn := n }, run_check_eq_ok.mpr ⟨checked, rfl⟩, ?_⟩⟩
      rcases free with rfl | free
      · cases clash? new book <;> exact run_pure _ _ _
      · rw [free]
        exact run_pure _ _ _
  | remove key =>
    simp only [revise, Revises]
    cases book.lookUp? key with
    | none => simp [run_throw]
    | some old => simp [run_pure, eq_comm]

theorem Plan.disk_revise (plan : Plan) (book : Book) (env : Env) (s : State) :
    ((plan.revise book).run env s).2.disk = s.disk := by
  cases plan with
  | create new =>
    obtain ⟨u, generated, logs⟩ := run_generate new env s
    simp only [revise]
    cases book.named? new.name with
    | some old => rfl
    | none =>
      dsimp only
      rw [run_bind, generated]
      cases new.isWritable <;> exact logs.disk
  | add candidate force =>
    obtain ⟨n, identifies⟩ := run_identified candidate book force env s
    simp only [revise]
    rw [run_bind, identifies]
    refine (IsPassive.bind (isPassive_check _) fun new => ?_) env _ |>.1
    split
    · exact .throw _
    · exact .pure _
  | remove key =>
    simp only [revise]
    cases book.lookUp? key <;> rfl

/-- What plan a request comes to. -/
def Request.Plans (env : Env) (s : State) : Request → Plan → Prop
  | create arguments, plan =>
    ∃ new, Spell.check (created arguments.1 (env.freshId (s.drawn + 1))) = .valid new ∧
      plan = .create new
  | add source force, plan =>
    ∃ candidate t, (Source.read source).run env s = (.ok candidate, t) ∧ plan = .add candidate force
  | remove key, plan => plan = .remove key

theorem Request.run_plan (request : Request) (plan : Plan) (env : Env) (s : State) :
    (∃ t, request.plan.run env s = (.ok plan, t)) ↔ request.Plans env s plan := by
  cases request with
  | create arguments =>
    constructor
    · rintro ⟨t, h⟩
      obtain ⟨id, u, drawn, h₁⟩ := run_bind_eq_ok.mp h
      obtain ⟨same, rfl⟩ := Prod.mk.inj (run_drawId.symm.trans drawn)
      obtain rfl := Except.ok.inj same
      obtain ⟨new, v, checks, last⟩ := run_bind_eq_ok.mp h₁
      obtain ⟨checked, rfl⟩ := run_check_eq_ok.mp checks
      obtain ⟨same, -⟩ := Prod.mk.inj ((run_pure _ _ _).symm.trans last)
      exact ⟨new, checked, (Except.ok.inj same).symm⟩
    · rintro ⟨new, checked, rfl⟩
      let u : State := { s with drawn := s.drawn + 1 }
      have checks : (check (created arguments.1 (env.freshId (s.drawn + 1)))).run env u
          = (.ok new, u) := run_check_eq_ok.mpr ⟨checked, rfl⟩
      exact ⟨u, run_bind_eq_ok.mpr ⟨_, u, rfl, run_bind_eq_ok.mpr ⟨new, u, checks, rfl⟩⟩⟩
  | add source force =>
    constructor
    · rintro ⟨t, h⟩
      obtain ⟨candidate, u, read, last⟩ := run_bind_eq_ok.mp h
      obtain ⟨same, -⟩ := Prod.mk.inj ((run_pure _ _ _).symm.trans last)
      exact ⟨candidate, u, read, (Except.ok.inj same).symm⟩
    · rintro ⟨candidate, u, read, rfl⟩
      exact ⟨u, run_bind_eq_ok.mpr ⟨candidate, u, read, rfl⟩⟩
  | remove key => simp [Request.plan, Plans, run_pure, eq_comm]

theorem Request.disk_plan (request : Request) (env : Env) (s : State) :
    (request.plan.run env s).2.disk = s.disk := by
  cases request with
  | create arguments =>
    exact ((isPassive_check _).bind (fun new => .pure (Plan.create new)) env
      { s with drawn := s.drawn + 1 }).1
  | add source force =>
    exact ((Source.isPassive_read source).bind (fun _ => .pure (Plan.add _ force)) env s).1
  | remove key => rfl

/-- The identifiers that a plan draws after the first stage are those that it would have drawn
before. -/
theorem Request.revises_run_plan {request : Request} {plan : Plan}
    (h : request.plan.run env s = (.ok plan, t)) (book revised : Book) :
    plan.Revises (env.freshId (t.drawn + 1)) book revised ↔
      plan.Revises (env.freshId (s.drawn + 1)) book revised := by
  cases request with
  | create arguments =>
    obtain ⟨new, -, rfl⟩ := (run_plan _ _ env s).mp ⟨t, h⟩
    exact Iff.rfl
  | add source force =>
    have drawn := ((Source.isPassive_read source).bind
      (fun candidate => .pure (Plan.add candidate force)) env s).2
    change ((Request.add source force).plan.run env s).2.drawn = s.drawn at drawn
    rw [h] at drawn
    rw [drawn]
  | remove key =>
    obtain rfl := (run_plan _ _ env s).mp ⟨t, h⟩
    exact Iff.rfl

/-! ## What a request does -/

/-- The first two stages give a plan and the book that is loaded, and leave the disk alone. -/
theorem Request.run_begin (request : Request) {reading : Reading}
    (loads : loaded env.rooms.book (s.disk.contentAt env.here (pathOf env place)) = .ok reading) :
    (∃ plan t u, request.plan.run env s = (.ok plan, u) ∧ u.Logs t ∧ t.disk = s.disk ∧
      (request.begin place).run env s = (.ok (plan, reading.book), t)) ∨
    ∃ failure t, (request.begin place).run env s = (.error failure, t) ∧ t.disk = s.disk ∧
      ∀ plan, ¬request.Plans env s plan := by
  have kept := request.disk_plan env s
  have plans := fun plan => request.run_plan plan env s
  rcases outcome : request.plan.run env s with ⟨failure | plan, u⟩ <;> rw [outcome] at kept
  · refine .inr ⟨failure, u, run_bind_eq_error.mpr (.inl outcome), kept, fun plan planned => ?_⟩
    obtain ⟨t, planned⟩ := (plans plan).mpr planned
    exact absurd (outcome.symm.trans planned) (by simp)
  · obtain ⟨t, loading, logs⟩ := run_load place env u
    rw [kept, loads] at loading
    exact .inl ⟨plan, t, u, rfl, logs, logs.disk.trans kept,
      run_bind_eq_ok.mpr ⟨plan, u, outcome, run_bind_eq_ok.mpr ⟨_, t, loading, rfl⟩⟩⟩

theorem Request.run_begin_eq_ok {request : Request} {plan : Plan}
    (h : (request.begin place).run env s = (.ok (plan, book), t)) :
    request.Plans env s plan ∧
      ∃ reading, loaded env.rooms.book (s.disk.contentAt env.here (pathOf env place)) = .ok reading ∧
        book = reading.book := by
  obtain ⟨plan', u, planned, h₁⟩ := run_bind_eq_ok.mp h
  obtain ⟨book', v, loading, last⟩ := run_bind_eq_ok.mp h₁
  obtain ⟨same, -⟩ := Prod.mk.inj ((run_pure _ _ _).symm.trans last)
  obtain ⟨rfl, rfl⟩ : plan' = plan ∧ book' = book := by simpa using same
  obtain ⟨w, loading', -⟩ := run_load place env u
  have kept := request.disk_plan env s
  rw [planned] at kept
  rw [loading, kept] at loading'
  refine ⟨(request.run_plan plan' env s).mp ⟨u, planned⟩, ?_⟩
  cases loads : loaded env.rooms.book (s.disk.contentAt env.here (pathOf env place)) with
  | error failure => simp [loads, Except.map] at loading'
  | ok reading => exact ⟨reading, rfl, by simpa [loads, Except.map] using (Prod.mk.inj loading').1⟩

theorem Request.disk_begin (request : Request) (place : Option Text) (env : Env) (s : State) :
    ((request.begin place).run env s).2.disk = s.disk := by
  have kept := request.disk_plan env s
  rw [begin, run_bind]
  rcases outcome : request.plan.run env s with ⟨failure | plan, u⟩ <;> rw [outcome] at kept
  · exact kept
  · obtain ⟨t, loading, logs⟩ := run_load place env u
    dsimp only
    rw [run_bind, loading]
    cases loaded env.rooms.book (u.disk.contentAt env.here (pathOf env place)) <;>
      exact logs.disk.trans kept

/-- The last stage saves the revised book, or leaves the disk alone if there is none. -/
theorem Plan.run_finish (plan : Plan) (place : Option Text) (book : Book) (env : Env) (s : State) :
    (∃ revised t, plan.Revises (env.freshId (s.drawn + 1)) book revised ∧ t.disk = s.disk ∧
      (plan.finish place book).run env s = (save place revised).run env t) ∨
    ∃ failure t, (plan.finish place book).run env s = (.error failure, t) ∧ t.disk = s.disk ∧
      ∀ revised, ¬plan.Revises (env.freshId (s.drawn + 1)) book revised := by
  have kept := plan.disk_revise book env s
  have revises := fun revised => plan.run_revise book revised env s
  rcases outcome : (plan.revise book).run env s with ⟨failure | revised, t⟩ <;> rw [outcome] at kept
  · refine .inr ⟨failure, t, run_bind_eq_error.mpr (.inl outcome), kept, fun revised due => ?_⟩
    obtain ⟨u, due⟩ := (revises revised).mpr due
    exact absurd (outcome.symm.trans due) (by simp)
  · refine .inl ⟨revised, t, (revises revised).mp ⟨t, outcome⟩, kept, ?_⟩
    rw [finish, run_bind, outcome]

/-- What a request makes of a book, if nothing stands in the way of it. -/
def Request.Due (env : Env) (s : State) (book : Book) (request : Request) (revised : Book) : Prop :=
  ∃ plan, request.Plans env s plan ∧ plan.Revises (env.freshId (s.drawn + 1)) book revised

theorem Request.Due.unique {request : Request} {revised other : Book}
    (first : request.Due env s book revised) (second : request.Due env s book other) :
    revised = other := by
  obtain ⟨plan, plans, revises⟩ := first
  obtain ⟨plan', plans', revises'⟩ := second
  obtain ⟨t, planned⟩ := (request.run_plan plan env s).mpr plans
  obtain ⟨t', planned'⟩ := (request.run_plan plan' env s).mpr plans'
  obtain rfl : plan = plan' := by simpa using (Prod.mk.inj (planned.symm.trans planned')).1
  obtain ⟨u, revised₁⟩ := (plan.run_revise book revised env s).mpr revises
  obtain ⟨u', revised₂⟩ := (plan.run_revise book other env s).mpr revises'
  simpa using (Prod.mk.inj (revised₁.symm.trans revised₂)).1

/-- A request saves what it makes of the book, or leaves the disk alone if it makes nothing of it.
-/
theorem Request.run_commit (request : Request) {reading : Reading}
    (loads : loaded env.rooms.book (s.disk.contentAt env.here (pathOf env place)) = .ok reading) :
    (∃ revised t, request.Due env s reading.book revised ∧ t.disk = s.disk ∧
      (request.commit place).run env s = (save place revised).run env t) ∨
    ∃ failure t, (request.commit place).run env s = (.error failure, t) ∧ t.disk = s.disk ∧
      ∀ revised, ¬request.Due env s reading.book revised := by
  rcases request.run_begin loads with ⟨plan, t, u, planned, logs, kept, begun⟩ |
    ⟨failure, t, begun, kept, none⟩
  · have planning := (request.run_plan plan env s).mp ⟨u, planned⟩
    have fresh := fun revised => request.revises_run_plan planned reading.book revised
    have committed : (request.commit place).run env s
        = (plan.finish place reading.book).run env t := by
      rw [commit, run_bind, begun]
    rw [committed, ← logs.drawn] at *
    rcases plan.run_finish place reading.book env t with ⟨revised, v, revises, kept', finished⟩ |
      ⟨failure, v, finished, kept', none⟩
    · exact .inl ⟨revised, v, ⟨plan, planning, (fresh revised).mp revises⟩, kept'.trans kept,
        finished⟩
    · refine .inr ⟨failure, v, finished, kept'.trans kept, ?_⟩
      rintro revised ⟨other, planning', revises⟩
      obtain ⟨u', planned'⟩ := (request.run_plan other env s).mpr planning'
      obtain rfl : plan = other := by simpa using (Prod.mk.inj (planned.symm.trans planned')).1
      exact none revised ((fresh revised).mpr revises)
  · refine .inr ⟨failure, t, ?_, kept, fun revised ⟨plan, planning, _⟩ => none plan planning⟩
    rw [commit, run_bind, begun]

theorem isPassive_confirmClear (isSure : Bool) (p : Path) : IsPassive (confirmClear isSure p) := by
  unfold confirmClear
  split
  · exact .pure _
  · exact isPassive_inputLines.bind fun _ => isPassive_confirm _ _

/-- Clearing takes the file away if it is confirmed, and leaves the disk alone if it is not. -/
theorem run_commitClear (isSure : Bool) (place : Option Text) (env : Env) (s : State) :
    (∃ t, t.disk = s.disk ∧ (commitClear isSure place).run env s
      = (do clear (pathOf env place); return true : Act Bool).run env t) ∨
    ∃ outcome t, (commitClear isSure place).run env s = (outcome, t) ∧ t.disk = s.disk ∧
      outcome ≠ .ok true := by
  have kept := (isPassive_confirmClear isSure (pathOf env place) env s).1
  rw [commitClear, run_bind, run_env]
  dsimp only
  rw [run_bind]
  rcases outcome : (confirmClear isSure (pathOf env place)).run env s
    with ⟨failure | isConfirmed, t⟩ <;>
    rw [outcome] at kept
  · exact .inr ⟨.error failure, t, rfl, kept, by simp⟩
  · dsimp only
    split
    · exact .inl ⟨t, kept, rfl⟩
    · exact .inr ⟨.ok false, t, rfl, kept, by simp⟩

end Book

end Grimoire
