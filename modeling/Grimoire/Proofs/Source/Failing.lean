import Grimoire.Command.Run
import Grimoire.Proofs.Book.Place
import Grimoire.Proofs.Source.Delivery

/-!
# How reading fails

A source that cannot be read is a fault of the source, which the commands report. Some causes get past
that: a locator or an address that makes no sense, a path that cannot be asked for, bytes that are no
text, and a text that is too much for the reader (`Source.Escapes`). These are all of them
(`Source.read_total`), and they do occur (`Source.read_undecodable`).
-/

namespace Grimoire

/-- The source from which a command reads a candidate. -/
def Command.source? : Command → Option Text
  | .validate source | .generate source .. | .digest source _ | .add source .. => some source
  | _ => none

namespace Source

open Act

/-- Whether a value is what the bytes behind a source hold. -/
def Holds (env : Env) (s : State) (source : Text) (v : Json) : Prop :=
  ∃ bytes charset t, Delivers env s bytes source charset ∧ Fits source bytes ∧
    Response.decode charset bytes = .ok t ∧ Json.read env.rooms.source t = .ok v

/-- The failures of reading that are no fault of the source. -/
inductive Escapes (env : Env) (s : State) (source : Text) : Failure → Prop
  | locator {fault : LocatorFault} (named : source ≠ "-")
      (place : Locator.isWeb source = .error fault) : Escapes env s source (.locator fault)
  | path {o : Obstacle} (named : source ≠ "-") (place : Locator.isWeb source = .ok false)
      (refused : Disk.refusal? (Path.ofText source) = some o) :
      Escapes env s source (.disk ⟨o, Path.ofText source⟩)
  | refused {message last : Text} (place : Locator.isWeb source = .ok true)
      (refuses : ask env.web env.followsMoves redirectLimit (Address.usual source)
        = (.refused message, last)) : Escapes env s source (.address message)
  | unreadable {bytes : Bytes} {charset : Response.Charset} {fault : Response.CharsetFault}
      (delivers : Delivers env s bytes source charset) (fits : Fits source bytes)
      (decoded : Response.decode charset bytes = .error fault) :
      Escapes env s source (unreadable fault)
  | limit {bytes : Bytes} {charset : Response.Charset} {t : Text} {limit : Json.ReadError}
      (delivers : Delivers env s bytes source charset) (fits : Fits source bytes)
      (decoded : Response.decode charset bytes = .ok t) (is : limit.IsLimit)
      (given : Json.read env.rooms.source t = .error limit) : Escapes env s source (.unread limit)

variable {env : Env} {s : State} {source : Text} {failure : Failure}

theorem Escapes.isReported (escapes : Escapes env s source failure) : failure.isReported = false := by
  cases escapes with
  | unreadable delivers fits decoded =>
    rename_i fault
    cases fault <;> rfl
  | _ => rfl

/-- Behind an address there are bytes, or there is a fault, or the address is refused. -/
theorem fetch_cases (place : Locator.isWeb source = .ok true) :
    (∃ bytes charset, Delivers env s bytes source charset ∧ Fits source bytes) ∨
    (∃ fault, fetch env.web env.charsets env.followsMoves source = .error (.source source fault)) ∨
    ∃ failure, Escapes env s source failure ∧
      fetch env.web env.charsets env.followsMoves source = .error failure := by
  rcases asked : ask env.web env.followsMoves redirectLimit (Address.usual source)
    with ⟨response | message | message, last⟩
  · cases success : response.isSuccess with
    | false =>
      refine .inr (.inl ⟨.web (response.complaint last), ?_⟩)
      rw [fetch, asked]
      simp [text, success]
    | true =>
      rw [fetch_of_success asked success]
      by_cases large : Response.sizeLimit < response.chunks.flatten.length
      · exact .inr (.inl ⟨_, if_pos large⟩)
      · cases ends : response.breakOff with
        | none =>
          exact .inl ⟨_, _, .web place asked success ends rfl rfl, fun _ => Nat.not_lt.mp large⟩
        | some message => exact .inr (.inl ⟨_, by rw [if_neg large]⟩)
  · exact .inr (.inl ⟨.web message, by rw [fetch, asked]⟩)
  · exact .inr (.inr ⟨_, .refused place asked, by rw [fetch, asked]⟩)

/-- Behind a path there are bytes, or there is a fault, or the path cannot be asked for. -/
theorem fileText_cases (named : source ≠ "-") (place : Locator.isWeb source = .ok false) :
    (∃ bytes charset, Delivers env s bytes source charset ∧ Fits source bytes) ∨
    (∃ fault, fileText source (s.disk.contentAt env.here (Path.ofText source))
      = .error (.source source fault)) ∨
    ∃ failure, Escapes env s source failure ∧
      fileText source (s.disk.contentAt env.here (Path.ofText source)) = .error failure := by
  cases content : s.disk.contentAt env.here (Path.ofText source) with
  | ok bytes =>
    have file : s.disk.fileAt env.here (Path.ofText source) = some bytes := by
      rw [Disk.fileAt, content]
      rfl
    refine .inl ⟨bytes, .utf8, .file named place file, fun web => ?_⟩
    exact absurd (place.symm.trans web) (by simp)
  | error error =>
    obtain ⟨o, refused, rfl⟩ | ⟨-, number⟩ := Disk.contentAt_eq_error content
    · refine .inr (.inr ⟨_, .path named place refused, ?_⟩)
      rw [fileText, if_pos (by rw [Disk.number_of_refusal refused]; rfl)]
    · refine .inr (.inl ⟨.obstacle error.obstacle, ?_⟩)
      rw [fileText, if_neg (by simp [Option.isSome_iff_ne_none.mp number])]

/-- Either there are bytes behind a source, or it is at fault, or the cause is one of the others. -/
theorem readText_cases (source : Text) (env : Env) (s : State) :
    (∃ bytes charset, Delivers env s bytes source charset ∧ Fits source bytes) ∨
    (∃ fault, ((readText source).run env s).1 = .error (.source source fault)) ∨
    ∃ failure, Escapes env s source failure ∧ ((readText source).run env s).1 = .error failure := by
  rw [fst_readText]
  by_cases named : source = "-"
  · subst named
    exact .inl ⟨s.input, .utf8, .input rfl, fun place => absurd place (by decide)⟩
  · rw [if_neg named]
    cases place : Locator.isWeb source with
    | error fault => exact .inr (.inr ⟨_, .locator named place, rfl⟩)
    | ok isWeb =>
      cases isWeb with
      | false => exact fileText_cases named place
      | true => exact fetch_cases place

/-- A failure that is no fault of the source comes out as it is. -/
theorem Escapes.fst_read (escapes : Escapes env s source failure) :
    ((read source).run env s).1 = .error failure := by
  cases escapes with
  | locator named place =>
    rw [Source.fst_read, fst_readText, if_neg named, place]
    rfl
  | @path o named place refused =>
    have content : s.disk.contentAt env.here (Path.ofText source)
        = .error ⟨o, Path.ofText source⟩ := by
      rw [Disk.contentAt, Disk.locate_of_refusal refused]
    rw [Source.fst_read, fst_readText, if_neg named, place]
    dsimp only
    rw [content, fileText, if_pos (by rw [Disk.number_of_refusal refused]; rfl)]
    rfl
  | refused place refuses =>
    have named : source ≠ "-" := by
      rintro rfl
      exact absurd place (by decide)
    rw [Source.fst_read, fst_readText, if_neg named, place]
    dsimp only
    rw [fetch, refuses]
    rfl
  | unreadable delivers fits decoded => exact read_of_unreadable delivers fits decoded
  | limit delivers fits decoded is given =>
    obtain ⟨v, value, -⟩ | ⟨e, f, fault, -⟩ | ⟨limit, -, given', outcome⟩ :=
      read_of_delivers delivers fits decoded
    · cases given.symm.trans value
    · obtain rfl := Except.error.inj (given.symm.trans fault)
      exact is.elim
    · obtain rfl := Except.error.inj (given.symm.trans given')
      exact outcome

/-- A source is read as a value, found at fault, or fails for a cause that escapes. -/
theorem read_cases (source : Text) (env : Env) (s : State) :
    (∃ v, Holds env s source v ∧ ((read source).run env s).1 = .ok v) ∨
    (∃ fault, ((read source).run env s).1 = .error (.source source fault)) ∨
    ∃ failure, Escapes env s source failure ∧ ((read source).run env s).1 = .error failure := by
  obtain ⟨bytes, charset, delivers, fits⟩ | ⟨fault, failed⟩ | ⟨failure, escapes, failed⟩ :=
    readText_cases source env s
  · cases decoded : Response.decode charset bytes with
    | error fault =>
      exact .inr (.inr ⟨_, .unreadable delivers fits decoded,
        read_of_unreadable delivers fits decoded⟩)
    | ok t =>
      obtain ⟨v, value, outcome⟩ | ⟨e, f, -, outcome, -⟩ | ⟨limit, is, given, outcome⟩ :=
        read_of_delivers delivers fits decoded
      · exact .inl ⟨v, ⟨bytes, charset, t, delivers, fits, decoded, value⟩, outcome⟩
      · exact .inr (.inl ⟨_, outcome⟩)
      · exact .inr (.inr ⟨_, .limit delivers fits decoded is given, outcome⟩)
  · exact .inr (.inl ⟨fault, by rw [Source.fst_read, failed]; rfl⟩)
  · exact .inr (.inr ⟨failure, escapes, escapes.fst_read⟩)

/-- What the bytes behind a source hold is what is read from it. -/
theorem Holds.fst_read {v : Json} (holds : Holds env s source v) :
    ((read source).run env s).1 = .ok v := by
  obtain ⟨bytes, charset, t, delivers, fits, decoded, value⟩ := holds
  obtain ⟨w, value', outcome⟩ | ⟨e, f, fault, -⟩ | ⟨limit, -, given, -⟩ :=
    read_of_delivers delivers fits decoded
  · obtain rfl := Except.ok.inj (value.symm.trans value')
    exact outcome
  · cases value.symm.trans fault
  · cases value.symm.trans given

end Source

namespace Command

open Act

variable {env : Env} {s t : State} {source : Text} {failure : Failure}

/-- Reports a failure that is to be reported and gives code 1; any other failure ends the run. -/
def refuse (failure : Failure) : Act Nat := do
  if failure.isReported then
    report failure
    return 1
  else throw failure

theorem orReport_failed {α : Type} {act : Act α} (next : α → Act Nat)
    (failed : act.run env s = (.error failure, t)) :
    (orReport act next).run env s = (refuse failure).run env t := by
  rw [orReport, run_bind, run_attempt, failed]
  rfl

/-- Every command that reads a source fails as reading does. -/
theorem run_of_read_failed {command : Command} (reads : command.source? = some source)
    (failed : (Source.read source).run env s = (.error failure, t)) :
    (run command).run env s = (refuse failure).run env t := by
  have loads : (loadSpell source).run env s = (.error failure, t) := by
    rw [loadSpell, run_bind, failed]
  cases command with
  | validate | generate | digest =>
    obtain rfl := Option.some.inj reads
    exact orReport_failed _ loads
  | add source' force place =>
    obtain rfl := Option.some.inj reads
    have adds : (addSpell source' force place).run env s = (.error failure, t) := by
      rw [addSpell, run_bind, failed]
    exact orReport_failed _ adds
  | _ => cases reads

end Command

namespace Source

/-- A source is read as the value that its bytes hold. If there is none, reading names the source and
what is wrong with it, unless the cause is one of those that escape: these and no others come out as they
are. Every command that reads a source reports the first kind and gives code 1, and ends with a failure
of the second kind. -/
theorem read_total (source : Text) (env : Env) (s : State) :
    (∀ v, ((read source).run env s).1 = .ok v ↔ Holds env s source v) ∧
    (∀ failure, ((read source).run env s).1 = .error failure →
      (failure.isReported = true ∧ ∃ fault, failure = .source source fault) ∨
      (failure.isReported = false ∧ Escapes env s source failure)) ∧
    (∀ failure, Escapes env s source failure → ((read source).run env s).1 = .error failure) ∧
    ∀ command failure t, Command.source? command = some source →
      (read source).run env s = (.error failure, t) →
      (Command.run command).run env s =
        if failure.isReported then
          (do Command.report failure; return 1 : Act Nat).run env t
        else (.error failure, t) := by
  refine ⟨fun v => ⟨fun outcome => ?_, Holds.fst_read⟩, fun failure outcome => ?_,
    fun failure escapes => escapes.fst_read, fun command failure t reads failed => ?_⟩
  · obtain ⟨w, holds, outcome'⟩ | ⟨fault, failed⟩ | ⟨failure, -, failed⟩ := read_cases source env s
    · obtain rfl := Except.ok.inj (outcome.symm.trans outcome')
      exact holds
    · cases outcome.symm.trans failed
    · cases outcome.symm.trans failed
  · obtain ⟨v, -, value⟩ | ⟨fault, failed⟩ | ⟨other, escapes, failed⟩ := read_cases source env s
    · cases outcome.symm.trans value
    · obtain rfl := Except.error.inj (outcome.symm.trans failed)
      exact .inl ⟨rfl, fault, rfl⟩
    · obtain rfl := Except.error.inj (outcome.symm.trans failed)
      exact .inr ⟨escapes.isReported, escapes⟩
  · rw [Command.run_of_read_failed reads failed, Command.refuse]
    split <;> rfl

/-- One byte that starts no character is enough to end a command with a failure that is not reported. -/
theorem read_undecodable :
    let s : State := { State.empty with input := [0xFF] }
    let failure : Failure := .undecodable ⟨0, 1, 0xFF, .invalidStart⟩
    ((read "-").run Env.sample s).1 = .error failure ∧ failure.isReported = false ∧
      ((Command.run (.validate "-")).run Env.sample s).1 = .error failure := by
  intro s failure
  have decoded : Response.decode .utf8 [0xFF]
      = .error (.undecodable ⟨0, 1, 0xFF, .invalidStart⟩) := by
    simp [Response.decode, Utf8.decode, Utf8.decode.go, Utf8.shape?, Except.mapError]
  have delivers : Delivers Env.sample s [0xFF] "-" .utf8 := .input rfl
  have outcome : ((read "-").run Env.sample s).1 = .error failure :=
    read_of_unreadable delivers (fun place => absurd place (by decide)) decoded
  refine ⟨outcome, rfl, ?_⟩
  rw [Command.run_of_read_failed rfl (Prod.ext outcome rfl)]
  rfl

end Source

end Grimoire
