import Grimoire.Proofs.Text.Utf8
import Grimoire.Source.Fetch
import Mathlib.Data.List.Infix

/-!
# Downloading

A body may arrive cut into chunks in any way. What is collected of it is a front of it that goes over
the limit by less than one chunk (`Response.collected_collect`), and whether the body is taken, and as
what, follows from the whole of it (`Response.body_eq`). So fetching a document gives the text of the
whole body, or says that it is too large, however the body was cut (`Source.fetch_exact`).
-/

namespace Grimoire

namespace Response

/-- Whether a buffer holds what is collected of chunks: all of them, or a front of them that is over the
limit by no more than one of them. -/
def Collected (limit : Nat) (chunks : List Bytes) (b : Buffer) : Prop :=
  (b.bytes = chunks.flatten ∧ b.length ≤ limit) ∨
    (b.bytes <+: chunks.flatten ∧ limit < b.length ∧ ∃ chunk ∈ chunks, b.length ≤ limit + chunk.length)

theorem collected_empty (limit : Nat) : Collected limit [] .empty := .inl ⟨rfl, Nat.zero_le _⟩

/-- A chunk that is taken in leaves a buffer over the limit alone, and else adds no more than itself. -/
theorem Collected.add {limit : Nat} {chunks : List Bytes} {b : Buffer}
    (collected : Collected limit chunks b) (chunk : Bytes) :
    Collected limit (chunks ++ [chunk]) (collect limit b [chunk]) := by
  rw [Collected, List.flatten_concat, collect, collect]
  obtain ⟨all, small⟩ | ⟨front, large, most, member, bound⟩ := collected
  · rw [if_neg (Nat.not_lt.mpr small)]
    have length : (b.add chunk).length = b.length + chunk.length := rfl
    have bytes : (b.add chunk).bytes = chunks.flatten ++ chunk := by rw [Buffer.bytes_add, all]
    by_cases large : limit < (b.add chunk).length
    · exact .inr ⟨bytes ▸ List.prefix_refl _, large, chunk, by simp, by omega⟩
    · exact .inl ⟨bytes, Nat.not_lt.mp large⟩
  · rw [if_pos large]
    exact .inr ⟨front.trans (List.prefix_append _ _), large, most,
      List.mem_append_left _ member, bound⟩

/-- What the buffer holds after any number of chunks. -/
theorem collected_collect (limit : Nat) (chunks : List Bytes) :
    Collected limit chunks (collect limit .empty chunks) := by
  induction chunks using List.reverseRecOn with
  | nil => exact collected_empty limit
  | append_singleton chunks chunk ih =>
    rw [collect_append]
    exact ih.add chunk

theorem length_collect (limit : Nat) (chunks : List Bytes) :
    limit < (collect limit .empty chunks).length ↔ limit < chunks.flatten.length := by
  obtain ⟨all, -⟩ | ⟨front, large, -⟩ := collected_collect limit chunks
  · rw [← all, Buffer.length_bytes]
  · have longer := front.length_le
    rw [Buffer.length_bytes] at longer
    exact ⟨fun _ => Nat.lt_of_lt_of_le large longer, fun _ => large⟩

/-- Whether there is a body, and which one, follows from the whole of it. -/
theorem body_eq (r : Response) :
    r.body = if sizeLimit < r.chunks.flatten.length then .error (.tooLarge sizeLimit)
      else match r.breakOff with
        | some message => .error (.broken message)
        | none => .ok r.chunks.flatten := by
  simp only [body, length_collect]
  split
  · rfl
  · next small =>
    obtain ⟨all, -⟩ | ⟨-, large, -⟩ := collected_collect sizeLimit r.chunks
    · cases r.breakOff with
      | none => exact congrArg Except.ok all
      | some message => rfl
    · exact absurd ((length_collect _ _).mp large) small

end Response

/-- Whether replies differ at most in how a body is cut into chunks. -/
inductive Reply.SameUncut : Reply → Reply → Prop
  | answer (r : Response) {chunks : List Bytes} (whole : r.chunks.flatten = chunks.flatten) :
      SameUncut (.answer r) (.answer { r with chunks })
  | broken (message : Text) : SameUncut (.broken message) (.broken message)
  | refused (message : Text) : SameUncut (.refused message) (.refused message)

namespace Source

variable {web web' : Text → Reply} {charsets : Charsets} {follows : Bool} {source last : Text}
  {response : Response}

/-- What an answer that counts gives follows from the whole body. -/
theorem text_eq (success : response.isSuccess = true) (url : Text) :
    text charsets source response url =
      if Response.sizeLimit < response.chunks.flatten.length then
        .error (.source source (.tooLarge Response.sizeLimit))
      else
        match response.breakOff with
        | some message => .error (.source source (.web message))
        | none => bodyText charsets response response.chunks.flatten := by
  rw [text, success, Response.body_eq]
  simp only [Bool.not_true, Bool.false_eq_true, if_false]
  by_cases large : Response.sizeLimit < response.chunks.flatten.length
  · simp only [if_pos large]
  · simp only [if_neg large]
    cases response.breakOff <;> rfl

theorem text_sameUncut (r : Response) {chunks : List Bytes}
    (whole : r.chunks.flatten = chunks.flatten) (url : Text) :
    text charsets source r url = text charsets source { r with chunks } url := by
  have bodies : r.body = Response.body { r with chunks } := by
    rw [Response.body_eq, Response.body_eq, whole]
  rw [text, text, bodies]
  rfl

theorem named_sameUncut {reply reply' : Reply} (same : reply.SameUncut reply') :
    (Reply.named reply).SameUncut (Reply.named reply') := by
  cases same with
  | answer r whole => exact .answer r whole
  | broken message => exact .broken message
  | refused message => exact .broken _

section Asking

variable (same : ∀ url, (web url).SameUncut (web' url))

include same

/-- Where the bodies of answers are cut does not decide which addresses are asked. -/
theorem ask_sameUncut (follows : Bool) (left : Nat) (url : Text) :
    (ask web follows left url).1.SameUncut (ask web' follows left url).1 ∧
      (ask web follows left url).2 = (ask web' follows left url).2 := by
  induction left using Nat.strongRecOn generalizing url with
  | ind left ih =>
    have replies := same url
    rw [ask.eq_def web, ask.eq_def web']
    generalize web url = a, web' url = b at replies ⊢
    cases replies with
    | @answer r chunks whole =>
      have moved : Response.redirect? { r with chunks } = r.redirect? := rfl
      simp only [moved]
      split
      · next location _ =>
        cases left with
        | zero => exact ⟨.broken _, rfl⟩
        | succ left =>
          obtain ⟨reply, last⟩ := ih left (Nat.lt_succ_self left) (Address.next url location)
          exact ⟨named_sameUncut reply, last⟩
      · exact ⟨.answer r whole, rfl⟩
    | broken message => exact ⟨.broken message, rfl⟩
    | refused message => exact ⟨.refused message, rfl⟩

theorem fetch_sameUncut :
    fetch web charsets follows source = fetch web' charsets follows source := by
  have replies := ask_sameUncut same follows redirectLimit (Address.usual source)
  unfold fetch
  generalize ask web follows redirectLimit (Address.usual source) = a,
    ask web' follows redirectLimit (Address.usual source) = b at replies ⊢
  obtain ⟨reply, last⟩ := a
  obtain ⟨reply', last'⟩ := b
  obtain ⟨same', rfl⟩ : reply.SameUncut reply' ∧ last = last' := replies
  cases same' with
  | answer r whole => exact text_sameUncut r whole last
  | broken message => rfl
  | refused message => rfl

end Asking

/-- What is fetched from an address follows from the whole body of the answer that counts. -/
theorem fetch_of_success
    (answers : ask web follows redirectLimit (Address.usual source) = (.answer response, last))
    (success : response.isSuccess = true) :
    fetch web charsets follows source =
      if Response.sizeLimit < response.chunks.flatten.length then
        .error (.source source (.tooLarge Response.sizeLimit))
      else
        match response.breakOff with
        | some message => .error (.source source (.web message))
        | none => bodyText charsets response response.chunks.flatten := by
  rw [fetch, answers]
  exact text_eq success last

/-- An answer that counts gives the text of its whole body if that is no larger than the limit, and the
failure that says so otherwise, even if the body breaks off behind the limit. Where the body is cut plays
no part in it. While the chunks are taken in, the buffer is never over the limit by more than one of
them. -/
theorem fetch_exact
    (answers : ask web follows redirectLimit (Address.usual source) = (.answer response, last))
    (success : response.isSuccess = true) :
    (fetch web charsets follows source =
      if Response.sizeLimit < response.chunks.flatten.length then
        .error (.source source (.tooLarge Response.sizeLimit))
      else
        match response.breakOff with
        | some message => .error (.source source (.web message))
        | none => bodyText charsets response response.chunks.flatten) ∧
    (Failure.source source (.tooLarge Response.sizeLimit)).message
      = source ++ ": document exceeds 1048576 bytes" ∧
    (∀ web', (∀ url, (web url).SameUncut (web' url)) →
      fetch web' charsets follows source = fetch web charsets follows source) ∧
    ∀ front rest, response.chunks = front ++ rest →
      Response.collect Response.sizeLimit .empty response.chunks
        = Response.collect Response.sizeLimit (Response.collect Response.sizeLimit .empty front) rest ∧
      ((Response.collect Response.sizeLimit .empty front).length ≤ Response.sizeLimit ∨
        ∃ chunk ∈ front, (Response.collect Response.sizeLimit .empty front).length
          ≤ Response.sizeLimit + chunk.length) := by
  refine ⟨fetch_of_success answers success, ?_, fun web' same => (fetch_sameUncut same).symm, ?_⟩
  · have wording : ": " ++ ("document exceeds " ++ Text.ofNat Response.sizeLimit ++ " bytes")
        = (": document exceeds 1048576 bytes" : Text) := by decide
    rw [Failure.message, List.append_assoc]
    exact congrArg (source ++ ·) wording
  · intro front rest cut
    refine ⟨by rw [cut, Response.collect_append], ?_⟩
    obtain ⟨-, small⟩ | ⟨-, -, bound⟩ := Response.collected_collect Response.sizeLimit front
    · exact .inl small
    · exact .inr bound

/-- A text that is cut in the middle of a character comes through. -/
theorem fetch_exact_cut :
    fetch (fun _ => .answer ⟨200, [], [[0x22, 0xC3], [], [0xA4, 0x22]], none⟩) (fun _ => none) true
        "http://host/a.json" = .ok "\"ä\"" := by
  have decoded : Utf8.decode [0x22, 0xC3, 0xA4, 0x22] = .ok "\"ä\"" := Utf8.decode_encode (by decide)
  rw [(fetch_exact (ask_of_answer rfl rfl) rfl).1, if_neg (by decide)]
  simp only [bodyText, Response.charset, Response.header?, List.find?_nil, Option.map_none,
    Option.getD_none, Response.decode, List.flatten_cons, List.flatten_nil, List.cons_append,
    List.nil_append, decoded, Except.mapError]

end Source

end Grimoire
