import Grimoire.Text.CodePoint

/-!
# UTF-8

`Utf8.encode` writes a text as bytes and refuses a surrogate that stands alone; `Utf8.decode` reads
bytes strictly: every sequence has its shortest form, no surrogate and nothing past U+10FFFF. A
refusal says which bytes are at fault.

Main statement: `Utf8.isSome_encode` (a text can be written exactly when it is encodable).
-/

namespace Grimoire

-- the power of natural numbers is that of the core library, whatever else is in scope
attribute [local instance (high)] instPowNat

/-- The content of a file or of a message body. -/
abbrev Bytes := List UInt8

namespace Utf8

/-- The bytes of one character. -/
def encodeChar (c : Char) : Bytes :=
  let n := c.toNat
  let trail (k : Nat) : UInt8 := UInt8.ofNat (0x80 + n / 64 ^ k % 64)
  if n < 0x80 then [UInt8.ofNat n]
  else if n < 0x800 then [UInt8.ofNat (0xC0 + n / 64), trail 0]
  else if n < 0x10000 then [UInt8.ofNat (0xE0 + n / 64 ^ (2 : Nat)), trail 1, trail 0]
  else [UInt8.ofNat (0xF0 + n / 64 ^ (3 : Nat)), trail 2, trail 1, trail 0]

/-- The bytes of a text, if no surrogate stands alone in it. -/
def encode (t : Text) : Option Bytes := t.scalars?.map (·.flatMap encodeChar)

/-- The code points from `position` on, `length` of them, of which `lead` is the first, are surrogates
that stand alone. -/
structure EncodeError where
  position : Nat
  length : Nat
  lead : Nat
  deriving DecidableEq

/-- Where the first surrogates that stand alone are in a text. -/
def encodeError (t : Text) : EncodeError :=
  let front := t.takeWhile CodePoint.isScalar
  let run := (t.drop front.length).takeWhile fun c => !c.isScalar
  ⟨front.length, run.length, (run.head?.map CodePoint.val).getD 0⟩

/-- The wording of an error: one surrogate is named, several are given by their positions. -/
def EncodeError.message (e : EncodeError) : Text :=
  let place : Text :=
    if e.length = 1 then
      "character '\\u" ++ (Nat.toDigits 16 e.lead).map CodePoint.scalar ++ "' in position "
        ++ Text.ofNat e.position
    else
      "characters in position " ++ Text.ofNat e.position ++ "-"
        ++ Text.ofNat (e.position + e.length - 1)
  "'utf-8' codec can't encode " ++ place ++ ": surrogates not allowed"

/-- What is wrong with a sequence of bytes. -/
inductive Reason where
  | invalidStart
  | invalidContinuation
  | unexpectedEnd
  deriving DecidableEq

/-- The bytes from `position` on, `length` of them, of which `lead` is the first, are no character. -/
structure DecodeError where
  position : Nat
  length : Nat
  lead : UInt8
  reason : Reason
  deriving DecidableEq

/-- The wording of a reason. -/
def Reason.message : Reason → String
  | invalidStart => "invalid start byte"
  | invalidContinuation => "invalid continuation byte"
  | unexpectedEnd => "unexpected end of data"

/-- The wording of an error: one byte is named, several are given by their positions. -/
def DecodeError.message (e : DecodeError) : Text :=
  let hex := (Nat.toDigits 16 e.lead.toNat).map CodePoint.scalar
  let place : Text :=
    if e.length = 1 then
      "byte 0x" ++ (if hex.length = 1 then "0" ++ hex else hex) ++ " in position "
        ++ Text.ofNat e.position
    else
      "bytes in position " ++ Text.ofNat e.position ++ "-"
        ++ Text.ofNat (e.position + e.length - 1)
  "'utf-8' codec can't decode " ++ place ++ ": " ++ e.reason.message

/-- The lengths of sequences by their first byte, with the bounds of the second byte: the bounds
rule out longer forms than needed, surrogates, and numbers past U+10FFFF. -/
def shape? (lead : UInt8) : Option (Nat × UInt8 × UInt8) :=
  if lead < 0xC2 then none
  else if lead < 0xE0 then some (1, 0x80, 0xBF)
  else if lead = 0xE0 then some (2, 0xA0, 0xBF)
  else if lead = 0xED then some (2, 0x80, 0x9F)
  else if lead < 0xF0 then some (2, 0x80, 0xBF)
  else if lead = 0xF0 then some (3, 0x90, 0xBF)
  else if lead < 0xF4 then some (3, 0x80, 0xBF)
  else if lead = 0xF4 then some (3, 0x80, 0x8F)
  else none

/-- The number of good continuation bytes, at most `count`, and whether the bytes ended first. The
next byte has to lie between `low` and `high`, those after it between `80` and `BF`. -/
def trailing (low high : UInt8) : (count : Nat) → Bytes → Nat × Bool
  | 0, _ => (0, false)
  | _ + 1, [] => (0, true)
  | count + 1, b :: rest =>
    if low ≤ b ∧ b ≤ high then
      let (good, ended) := trailing 0x80 0xBF count rest
      (good + 1, ended)
    else (0, false)

/-- The number that a lead byte with `count` continuation bytes stands for. -/
def assemble (lead : UInt8) (count : Nat) (rest : Bytes) : Nat :=
  (rest.take count).foldl (fun n b => n * 64 + b.toNat % 64) (lead.toNat % 2 ^ (6 - count))

/-- Reads bytes strictly. -/
def decode (bytes : Bytes) : Except DecodeError Text := go 0 [] bytes
where
  go (position : Nat) (done : Text) : Bytes → Except DecodeError Text
    | [] => .ok done.reverse
    | lead :: rest =>
      if lead < 0x80 then
        go (position + 1) (.scalar (Char.ofNat lead.toNat) :: done) rest
      else
        match shape? lead with
        | none => .error ⟨position, 1, lead, .invalidStart⟩
        | some (count, low, high) =>
          match trailing low high count rest with
          | (good, ended) =>
            if good = count then
              go (position + count + 1) (.scalar (Char.ofNat (assemble lead count rest)) :: done)
                (rest.drop count)
            else
              .error ⟨position, good + 1, lead,
                if ended then .unexpectedEnd else .invalidContinuation⟩
  termination_by bytes => bytes.length
  decreasing_by
    · exact Nat.lt_succ_self _
    · rw [List.length_drop, List.length_cons]
      omega

theorem isSome_scalars? (t : Text) : t.scalars?.isSome = t.isEncodable := by
  induction t with
  | nil => rfl
  | cons c t ih =>
    simp only [Text.scalars?, Text.isEncodable, List.all_cons, List.mapM_cons] at ih ⊢
    cases c with
    | scalar c =>
      simp only [CodePoint.toChar?, CodePoint.isScalar, Bool.true_and, ← ih]
      cases h : t.mapM CodePoint.toChar? <;> rfl
    | surrogate s => rfl

/-- A text can be written exactly when no surrogate stands alone in it. -/
theorem isSome_encode (t : Text) : (encode t).isSome = t.isEncodable := by
  rw [encode, Option.isSome_map, isSome_scalars?]

end Utf8

end Grimoire
