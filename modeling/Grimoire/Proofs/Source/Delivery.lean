import Grimoire.Proofs.Book.Sample
import Grimoire.Proofs.Disk.Steps
import Grimoire.Proofs.Json.LineEnds
import Grimoire.Proofs.Source.Document
import Grimoire.Proofs.Source.Downloading

/-!
# What lies behind a source

Bytes may lie behind a source in three ways: as the input, as a file, and as the body of an answer from
the web. The way decides in which charset they are read, and whether line ends are made line feeds, which
does not show in what is read. So reading a source gives what its bytes hold (`Source.read_of_delivers`),
and the same bytes give the same value, or none, in whichever way they come (`Source.read_alike`).
-/

namespace Grimoire

/-- An answer that does not say how its body is written is read as UTF-8. -/
theorem Response.charset_absent {r : Response} (absent : r.header? "content-type" = none)
    (known : Charsets) : r.charset known = .utf8 := by
  simp [charset, absent]

namespace Source

open Act

/-- Whether bytes lie behind a source, to be read in a charset. -/
inductive Delivers (env : Env) (s : State) (bytes : Bytes) : Text → Response.Charset → Prop
  | input (all : s.input = bytes) : Delivers env s bytes "-" .utf8
  | file {source : Text} (named : source ≠ "-") (place : Locator.isWeb source = .ok false)
      (file : s.disk.fileAt env.here (Path.ofText source) = some bytes) :
      Delivers env s bytes source .utf8
  | web {source last : Text} {response : Response} {charset : Response.Charset}
      (place : Locator.isWeb source = .ok true)
      (answers : ask env.web env.followsMoves redirectLimit (Address.usual source)
        = (.answer response, last))
      (success : response.isSuccess = true) (ends : response.breakOff = none)
      (whole : response.chunks.flatten = bytes) (names : response.charset env.charsets = charset) :
      Delivers env s bytes source charset

/-- Whether bytes are few enough for a source: only what comes from the web is limited. -/
def Fits (source : Text) (bytes : Bytes) : Prop :=
  Locator.isWeb source = .ok true → bytes.length ≤ Response.sizeLimit

/-- The failure that a fault of bytes means. -/
def unreadable : Response.CharsetFault → Failure
  | .undecodable e => .undecodable e
  | .other message => .charset message

theorem bodyText_eq (charsets : Charsets) (response : Response) (body : Bytes) :
    bodyText charsets response body
      = (Response.decode (response.charset charsets) body).mapError unreadable := by
  unfold bodyText
  rcases Response.decode (response.charset charsets) body with (_ | _) | _ <;> rfl

theorem localText_eq (bytes : Bytes) :
    localText bytes
      = ((Response.decode .utf8 bytes).mapError unreadable).map Text.unixNewlines := by
  unfold localText Response.decode
  cases Utf8.decode bytes <;> rfl

variable {env : Env} {s : State} {source : Text} {bytes : Bytes} {charset : Response.Charset}

/-- The text of a source is that of its bytes, perhaps with other line ends. -/
theorem readText_of_delivers (delivers : Delivers env s bytes source charset)
    (fits : Fits source bytes) :
    ((readText source).run env s).1 = (Response.decode charset bytes).mapError unreadable ∨
      ((readText source).run env s).1
        = ((Response.decode charset bytes).mapError unreadable).map Text.unixNewlines := by
  rw [fst_readText]
  cases delivers with
  | input all =>
    rw [if_pos rfl, all]
    exact .inr (localText_eq bytes)
  | file named place file =>
    rw [if_neg named, place]
    dsimp only
    rw [Disk.contentAt_of_fileAt file]
    exact .inr (localText_eq bytes)
  | web place answers success ends whole names =>
    have named : source ≠ "-" := by
      rintro rfl
      exact absurd place (by decide)
    have small := Nat.not_lt.mpr (fits place)
    rw [if_neg named, place]
    dsimp only
    rw [fetch_of_success answers success, whole, if_neg small, ends, bodyText_eq, names]
    exact .inl rfl

theorem fst_read (source : Text) (env : Env) (s : State) :
    ((read source).run env s).1
      = ((readText source).run env s).1.bind (parse env.rooms.source source) := by
  rw [read, run_bind]
  rcases (readText source).run env s with ⟨_ | t, u⟩
  · rfl
  · exact congrArg Prod.fst (run_ofExcept _)

/-- Bytes that are no text in their charset are a failure of that kind. -/
theorem read_of_unreadable (delivers : Delivers env s bytes source charset)
    (fits : Fits source bytes) {fault : Response.CharsetFault}
    (decoded : Response.decode charset bytes = .error fault) :
    ((read source).run env s).1 = .error (unreadable fault) := by
  rw [fst_read]
  obtain text | text := readText_of_delivers delivers fits <;> rw [text, decoded] <;> rfl

/-- What a text is parsed as, in terms of what it is read as. -/
theorem parse_cases (room : Nat) (source t : Text) :
    (∃ v, Json.read room t = .ok v ∧ parse room source t = .ok v) ∨
    (∃ e, Json.read room t = .error (.malformed e) ∧
      parse room source t = .error (.source source (.malformed e))) ∨
    ∃ limit : Json.ReadError, limit.IsLimit ∧ Json.read room t = .error limit ∧
      parse room source t = .error (.unread limit) := by
  unfold parse
  cases outcome : Json.read room t with
  | ok v => exact .inl ⟨v, rfl, rfl⟩
  | error e =>
    cases e with
    | malformed e => exact .inr (.inl ⟨e, rfl, rfl⟩)
    | tooDeep container => exact .inr (.inr ⟨.tooDeep container, trivial, rfl, rfl⟩)
    | tooManyDigits count => exact .inr (.inr ⟨.tooManyDigits count, trivial, rfl, rfl⟩)

/-- Other line ends move a fault at most. -/
theorem parse_unixNewlines (room : Nat) (source t : Text) :
    (∃ v, Json.read room t = .ok v ∧ parse room source t.unixNewlines = .ok v) ∨
    (∃ e f, Json.read room t = .error (.malformed e) ∧
      parse room source t.unixNewlines = .error (.source source (.malformed f)) ∧
      e.fault = f.fault) ∨
    ∃ limit : Json.ReadError, limit.IsLimit ∧ Json.read room t = .error limit ∧
      parse room source t.unixNewlines = .error (.unread limit) := by
  unfold parse
  obtain ⟨v, read, read'⟩ | ⟨e, f, read, read', faults⟩ | ⟨limit, is, read, read'⟩ :=
    Json.read_sameLines room (Text.sameLines_unixNewlines t)
  · exact .inl ⟨v, read, by rw [read']⟩
  · exact .inr (.inl ⟨e, f, read, by rw [read'], faults⟩)
  · refine .inr (.inr ⟨limit, is, read, ?_⟩)
    rw [read']
    cases limit with
    | malformed => exact is.elim
    | tooDeep | tooManyDigits => rfl

/-- What is read from a source is what its bytes hold; only the place of a fault may be another one. -/
theorem read_of_delivers (delivers : Delivers env s bytes source charset) (fits : Fits source bytes)
    {t : Text} (decoded : Response.decode charset bytes = .ok t) :
    (∃ v, Json.read env.rooms.source t = .ok v ∧ ((read source).run env s).1 = .ok v) ∨
    (∃ e f, Json.read env.rooms.source t = .error (.malformed e) ∧
      ((read source).run env s).1 = .error (.source source (.malformed f)) ∧ e.fault = f.fault) ∨
    ∃ limit : Json.ReadError, limit.IsLimit ∧ Json.read env.rooms.source t = .error limit ∧
      ((read source).run env s).1 = .error (.unread limit) := by
  rw [fst_read]
  obtain text | text := readText_of_delivers delivers fits
  · rw [text, decoded]
    obtain ⟨v, value, parsed⟩ | ⟨e, fault, parsed⟩ | limit := parse_cases env.rooms.source source t
    · exact .inl ⟨v, value, parsed⟩
    · exact .inr (.inl ⟨e, e, fault, parsed, rfl⟩)
    · exact .inr (.inr limit)
  · rw [text, decoded]
    exact parse_unixNewlines env.rooms.source source t

/-- Bytes that are a text in UTF-8 and not too many for the web are read as the same value, or not at all,
whichever way they come: what the text holds with the line ends that it has, which is what it holds with
line feeds in their place. -/
theorem read_alike {t : Text} (valid : Utf8.decode bytes = .ok t)
    (small : bytes.length ≤ Response.sizeLimit) {env' : Env} {s' : State} {source' : Text}
    (first : Delivers env s bytes source .utf8) (second : Delivers env' s' bytes source' .utf8)
    (room : env'.rooms.source = env.rooms.source) :
    ((read source).run env s).1.toOption = ((read source').run env' s').1.toOption ∧
    ((read source).run env s).1.toOption = (Json.read env.rooms.source t).toOption ∧
    (Json.read env.rooms.source t.unixNewlines).toOption
      = (Json.read env.rooms.source t).toOption := by
  have same {env : Env} {s : State} {source : Text} (delivers : Delivers env s bytes source .utf8) :
      ((read source).run env s).1.toOption = (Json.read env.rooms.source t).toOption := by
    have decoded : Response.decode .utf8 bytes = .ok t := by rw [Response.decode, valid]; rfl
    obtain ⟨v, value, outcome⟩ | ⟨e, f, fault, outcome, -⟩ | ⟨limit, -, given, outcome⟩ :=
      read_of_delivers delivers (fun _ => small) decoded
    · rw [value, outcome]
      rfl
    · rw [fault, outcome]
      rfl
    · rw [given, outcome]
      rfl
  exact ⟨(same first).trans (room ▸ same second).symm, same first,
    Json.read_unixNewlines env.rooms.source t⟩

/-- A text of two lines, which is behind the input and behind an address. -/
theorem read_alike_twice :
    let text : Text := "[1,\r\n2]"
    let bytes : Bytes := (Utf8.encode text).getD []
    let env : Env := { Env.sample with web := fun _ => .answer ⟨200, [], [bytes], none⟩ }
    let s : State := { State.empty with input := bytes }
    ((read "-").run env s).1.toOption = ((read "http://host/a.json").run env s).1.toOption := by
  intro text bytes env s
  have decoded : Utf8.decode bytes = .ok text := Utf8.decode_encode (by decide)
  exact (read_alike decoded (by decide) (.input rfl)
    (.web (by decide) (ask_of_answer rfl rfl) (by decide) rfl (by simp)
      (Response.charset_absent rfl _)) rfl).1

end Source

end Grimoire
