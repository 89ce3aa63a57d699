import Grimoire.Json.Basic

/-!
# Reading JSON text

The reader consumes a list of code points. Each part of it returns what it read together with a
strictly shorter rest, and a refusal carries the rest at which it happened, from which the place is
computed. `Json.read` accepts one value with blanks around it, in which no more containers are open at
once than there is room for. Where an object has a key twice, the first place and the last value count.

Main statement: `Json.skip_length_le` (skipping blanks never lengthens the rest).
-/

namespace Grimoire.Json

/-- What is wrong at a place of a text. -/
inductive Fault where
  | byteOrderMark
  | expectingValue
  | expectingName
  | expectingColon
  | expectingComma
  | unterminatedString
  | invalidControl
  | invalidEscape
  | invalidUnicodeEscape
  | extraData
  deriving DecidableEq

/-- The wording of a fault. -/
def Fault.message : Fault → String
  | byteOrderMark => "Unexpected UTF-8 BOM (decode using utf-8-sig)"
  | expectingValue => "Expecting value"
  | expectingName => "Expecting property name enclosed in double quotes"
  | expectingColon => "Expecting ':' delimiter"
  | expectingComma => "Expecting ',' delimiter"
  | unterminatedString => "Unterminated string starting at"
  | invalidControl => "Invalid control character at"
  | invalidEscape => "Invalid \\escape"
  | invalidUnicodeEscape => "Invalid \\uXXXX escape"
  | extraData => "Extra data"

/-- The two kinds of containers. -/
inductive Container where
  | array
  | object
  deriving DecidableEq

/-- A fault and its place: lines and columns count from one, the offset from zero. -/
structure SyntaxError where
  fault : Fault
  line : Nat
  column : Nat
  offset : Nat
  deriving DecidableEq

/-- The wording of a fault with its place. -/
def SyntaxError.message (e : SyntaxError) : Text :=
  e.fault.message ++ ": line " ++ Text.ofNat e.line ++ " column " ++ Text.ofNat e.column
    ++ " (char " ++ Text.ofNat e.offset ++ ")"

/-- Why a text was not read, or a value not written. An integer with too many digits is neither read nor
written; the count of its digits is told where it was read. -/
inductive ReadError where
  | malformed (error : SyntaxError)
  | tooDeep (container : Container)
  | tooManyDigits (count : Option Nat)
  deriving DecidableEq

/-- How many containers may be open at once in what is read. It is the stack that leaves this room, and
it always leaves more than any text of a book needs. -/
abbrev Room := { n : Nat // 300 ≤ n }

/-- Why reading stopped; a fault is at the start of the rest that is given. -/
inductive Stop where
  | malformed (fault : Fault) (rest : Text)
  | tooDeep (container : Container)
  | tooManyDigits (count : Nat)

/-- The rest of a text, of less than a given length. -/
abbrev Shorter (n : Nat) := { rest : Text // rest.length < n }

/-- Whether a code point may stand between tokens. -/
def isGap (c : CodePoint) : Bool :=
  c = .scalar ' ' || c = .scalar '\n' || c = .scalar '\t' || c = .scalar '\r'

/-- Skips what may stand between tokens. -/
def skip (s : Text) : Text := s.dropWhile isGap

theorem skip_length_le (s : Text) : (skip s).length ≤ s.length :=
  (List.dropWhile_suffix isGap).length_le

/-- The value of a hexadecimal digit. -/
def hexDigit? : CodePoint → Option Nat
  | .scalar c =>
    if '0' ≤ c ∧ c ≤ '9' then some (c.toNat - 48)
    else if 'a' ≤ c ∧ c ≤ 'f' then some (c.toNat - 87)
    else if 'A' ≤ c ∧ c ≤ 'F' then some (c.toNat - 55)
    else none
  | .surrogate _ => none

/-- The value of four hexadecimal digits. -/
def unit? (a b c d : CodePoint) : Option Nat := do
  let a ← hexDigit? a
  let b ← hexDigit? b
  let c ← hexDigit? c
  let d ← hexDigit? d
  return ((a * 16 + b) * 16 + c) * 16 + d

/-- The code point of a UTF-16 unit. -/
def unitCodePoint (n : Nat) : CodePoint := (CodePoint.ofNat? n).getD (.scalar '\uFFFD')

/-- The code point of a high and a low unit. -/
def pairCodePoint (high low : Nat) : CodePoint :=
  (CodePoint.ofNat? (0x10000 + (high - 0xD800) * 0x400 + (low - 0xDC00))).getD (.scalar '\uFFFD')

/-- The low unit of an escape at the start of a text, if something follows the escape. -/
def lowUnit? : Text → Option (Nat × Text)
  | .scalar '\\' :: .scalar 'u' :: a :: b :: c :: d :: e :: s =>
    match unit? a b c d with
    | some low => if 0xDC00 ≤ low ∧ low < 0xE000 then some (low, e :: s) else none
    | none => none
  | _ => none

theorem length_of_lowUnit? {s rest : Text} {low : Nat} (h : lowUnit? s = some (low, rest)) :
    rest.length ≤ s.length := by
  unfold lowUnit? at h
  split at h
  · split at h
    · split at h
      · simp only [Option.some.injEq, Prod.mk.injEq] at h
        rw [← h.2]
        simp only [List.length_cons]
        omega
      · exact absurd h (by simp)
    · exact absurd h (by simp)
  · exact absurd h (by simp)

/-- The character of an escape of one letter. -/
def simpleEscape? : CodePoint → Option Char
  | .scalar '"' => some '"'
  | .scalar '\\' => some '\\'
  | .scalar '/' => some '/'
  | .scalar 'b' => some '\x08'
  | .scalar 'f' => some '\x0C'
  | .scalar 'n' => some '\n'
  | .scalar 'r' => some '\r'
  | .scalar 't' => some '\t'
  | _ => none

/-- Reads a text from behind its opening quote, which is the first code point of `start`. An escape by
number has to be followed by something; two such escapes may make one code point. -/
def string (start done s : Text) : Except Stop (Text × Text) :=
  match s with
  | [] => .error (.malformed .unterminatedString start)
  | .scalar '"' :: r => .ok (done.reverse, r)
  | .scalar '\\' :: r =>
    match r with
    | [] => .error (.malformed .unterminatedString start)
    | .scalar 'u' :: a :: b :: c :: d :: e :: r' =>
      match unit? a b c d with
      | none => .error (.malformed .invalidUnicodeEscape r)
      | some u =>
        if 0xD800 ≤ u ∧ u < 0xDC00 then
          match _hl : lowUnit? (e :: r') with
          | some (low, r'') => string start (pairCodePoint u low :: done) r''
          | none => string start (unitCodePoint u :: done) (e :: r')
        else string start (unitCodePoint u :: done) (e :: r')
    | .scalar 'u' :: _ => .error (.malformed .invalidUnicodeEscape r)
    | c :: r' =>
      match simpleEscape? c with
      | some c => string start (.scalar c :: done) r'
      | none => .error (.malformed .invalidEscape s)
  | c :: r =>
    if c.val < 0x20 then .error (.malformed .invalidControl s)
    else string start (c :: done) r
termination_by s.length
decreasing_by
  · have := length_of_lowUnit? _hl
    simp only [List.length_cons] at *
    omega
  all_goals simp only [List.length_cons]; omega

theorem length_of_string {start done s t rest : Text} (h : string start done s = .ok (t, rest)) :
    rest.length < s.length := by
  fun_induction string start done s with
  | case2 done r =>
    simp only [Except.ok.injEq, Prod.mk.injEq] at h
    rw [← h.2]
    exact Nat.lt_succ_self _
  | case5 done a b c d e r u hu high low r' hl ih =>
    have hlow := length_of_lowUnit? hl
    have hrest := ih h
    simp only [List.length_cons] at hlow ⊢
    omega
  | case6 done a b c d e r u hu high hl ih =>
    have hrest := ih h
    simp only [List.length_cons] at hrest ⊢
    omega
  | case7 done a b c d e r u hu single ih =>
    have hrest := ih h
    simp only [List.length_cons] at hrest ⊢
    omega
  | case9 done c r hlong hletter e hescape ih =>
    have hrest := ih h
    simp only [List.length_cons]
    omega
  | case12 done c r hquote hbackslash control ih => exact Nat.lt_succ_of_lt (ih h)
  | _ => exact absurd h (by simp)

/-- Whether a code point is a decimal digit of ASCII. -/
def isDigit : CodePoint → Bool := CodePoint.satisfies Char.isDigit

/-- The number that decimal digits stand for. -/
def digitsValue (digits : Text) : Nat := digits.foldl (fun n c => 10 * n + (c.val - 48)) 0

/-- The digits at the start of a text and what follows them. -/
def spanDigits (s : Text) : Text × Text := (s.takeWhile isDigit, s.dropWhile isDigit)

/-- The digits before the point: a zero or digits that start with another one. -/
def wholePart? (s : Text) : Option (Text × Text) :=
  match s with
  | .scalar '0' :: r => some ([.scalar '0'], r)
  | c :: _ => if isDigit c then some (spanDigits s) else none
  | [] => none

/-- The digits after a point, if there are any. -/
def fraction (s : Text) : Text × Text :=
  match s with
  | .scalar '.' :: c :: r => if isDigit c then spanDigits (c :: r) else ([], s)
  | _ => ([], s)

/-- Whether a sign in front of a text is a minus, and what follows the sign, if there is one. -/
def sign (s : Text) : Bool × Text :=
  match s with
  | .scalar '-' :: r => (true, r)
  | .scalar '+' :: r => (false, r)
  | _ => (false, s)

/-- The power of ten, if there is one. -/
def power (s : Text) : Option Int × Text :=
  match s with
  | .scalar e :: r =>
    let (digits, rest) := spanDigits (sign r).2
    if (e = 'e' ∨ e = 'E') ∧ digits ≠ [] then
      let n : Int := digitsValue digits
      (some (if (sign r).1 then -n else n), rest)
    else (none, s)
  | _ => (none, s)

/-- Reads a number without its sign: the longest start of the text that is one. -/
def unsigned? (negative : Bool) (s : Text) : Option (Except Stop Json × Text) :=
  match wholePart? s with
  | none => none
  | some (whole, r) =>
    let (decimals, r) := fraction r
    let (exponent, r) := power r
    if decimals.isEmpty && exponent.isNone then
      if digitLimit < whole.length then some (.error (.tooManyDigits whole.length), r)
      else
        let n : Int := digitsValue whole
        some (.ok (int (if negative then -n else n)), r)
    else
      let digits := digitsValue (whole ++ decimals)
      some (.ok (float (Binary64.ofDecimal negative
        ⟨digits, exponent.getD 0 - decimals.length⟩)), r)

/-- The values that are written as words. -/
def words : List (Text × Json) :=
  [("null", null), ("true", bool true), ("false", bool false), ("NaN", float .nan),
    ("Infinity", float (.infinity false)), ("-Infinity", float (.infinity true))]

/-- Reads a number or a word. -/
def atom? (s : Text) : Option (Except Stop Json × Text) :=
  match words.find? fun entry => entry.1.isPrefixOf s with
  | some (word, v) => some (.ok v, s.drop word.length)
  | none =>
    match s with
    | .scalar '-' :: r => unsigned? true r
    | _ => unsigned? false s

theorem spanDigits_length_le (s : Text) : (spanDigits s).2.length ≤ s.length :=
  (List.dropWhile_suffix isDigit).length_le

theorem wholePart?_length_lt {s digits rest : Text} (h : wholePart? s = some (digits, rest)) :
    rest.length < s.length := by
  unfold wholePart? at h
  split at h
  · simp only [Option.some.injEq, Prod.mk.injEq] at h
    simp [← h.2]
  · rename_i c r _
    split at h
    · rename_i hc
      simp only [Option.some.injEq] at h
      have hr := spanDigits_length_le r
      rw [spanDigits, Prod.mk.injEq] at h
      rw [← h.2, List.dropWhile_cons_of_pos hc]
      simpa [spanDigits, Nat.lt_succ_iff] using hr
    · exact absurd h (by simp)
  · exact absurd h (by simp)

theorem fraction_length_le (s : Text) : (fraction s).2.length ≤ s.length := by
  unfold fraction
  split
  · rename_i c r
    split
    · have := spanDigits_length_le (c :: r)
      simp only [List.length_cons] at this ⊢
      omega
    · exact Nat.le_refl _
  · exact Nat.le_refl _

theorem sign_length_le (s : Text) : (sign s).2.length ≤ s.length := by
  unfold sign
  split <;> simp

theorem power_length_le (s : Text) : (power s).2.length ≤ s.length := by
  unfold power
  split
  · rename_i e r
    have hsign := sign_length_le r
    have hdigits := spanDigits_length_le (sign r).2
    dsimp only
    split
    · simp only [List.length_cons]
      omega
    · exact Nat.le_refl _
  · exact Nat.le_refl _

theorem unsigned?_length_lt {negative : Bool} {s rest : Text} {v : Except Stop Json}
    (h : unsigned? negative s = some (v, rest)) : rest.length < s.length := by
  unfold unsigned? at h
  split at h
  · exact absurd h (by simp)
  · rename_i whole r hwhole
    have h₁ := wholePart?_length_lt hwhole
    have h₂ := fraction_length_le r
    have h₃ := power_length_le (fraction r).2
    have hrest : rest = (power (fraction r).2).2 := by
      dsimp only at h
      split at h
      · split at h
        · simp only [Option.some.injEq, Prod.mk.injEq] at h
          exact h.2.symm
        · simp only [Option.some.injEq, Prod.mk.injEq] at h
          exact h.2.symm
      · simp only [Option.some.injEq, Prod.mk.injEq] at h
        exact h.2.symm
    rw [hrest]
    omega

theorem length_pos_of_mem_words {word : Text} {v : Json} (h : (word, v) ∈ words) :
    0 < word.length := by
  simp only [words, List.mem_cons, Prod.mk.injEq, List.not_mem_nil, or_false] at h
  rcases h with h | h | h | h | h | h <;> rw [h.1] <;> decide

theorem atom?_length_lt {s rest : Text} {v : Except Stop Json} (h : atom? s = some (v, rest)) :
    rest.length < s.length := by
  unfold atom? at h
  split at h
  · rename_i word w hword
    simp only [Option.some.injEq, Prod.mk.injEq] at h
    have hpos := length_pos_of_mem_words (List.mem_of_find?_eq_some hword)
    have hprefix := List.find?_some hword
    simp only at hprefix
    have hle := (List.isPrefixOf_iff_prefix.mp hprefix).length_le
    rw [← h.2, List.length_drop]
    omega
  · split at h
    · have := unsigned?_length_lt h
      simp only [List.length_cons]
      omega
    · exact unsigned?_length_lt h

/-- A reader of the values inside a container. -/
abbrev Inner := (s : Text) → Except Stop (Json × Shorter s.length)

/-- Reads the items of an array up to its closing bracket; an item has to come first. -/
def items (inner : Inner) (n : Nat) (done : List Json) (s : Text) (h : s.length < n) :
    Except Stop (List Json × Shorter n) :=
  match inner s with
  | .error e => .error e
  | .ok (v, ⟨r, hr⟩) =>
    match hs : skip r with
    | .scalar ']' :: t =>
      .ok ((v :: done).reverse, ⟨t, by
        have := skip_length_le r
        rw [hs] at this
        simp only [List.length_cons] at this
        omega⟩)
    | .scalar ',' :: t =>
      have ht : (skip t).length < s.length := by
        have h₁ := skip_length_le r
        have h₂ := skip_length_le t
        rw [hs] at h₁
        simp only [List.length_cons] at h₁
        omega
      items inner n (v :: done) (skip t) (by omega)
    | t => .error (.malformed .expectingComma t)
termination_by s.length

/-- Reads the name of a member, with its colon. -/
def memberName (s : Text) : Except Stop (Text × Shorter s.length) :=
  match s with
  | .scalar '"' :: r =>
    match hk : string (.scalar '"' :: r) [] r with
    | .error e => .error e
    | .ok (key, r₁) =>
      match hc : skip r₁ with
      | .scalar ':' :: r₂ =>
        .ok (key, ⟨r₂, by
          have h₁ := length_of_string hk
          have h₂ := skip_length_le r₁
          rw [hc] at h₂
          simp only [List.length_cons] at h₂ ⊢
          omega⟩)
      | t => .error (.malformed .expectingColon t)
  | s => .error (.malformed .expectingName s)

/-- Reads the members of an object up to its closing brace; a name has to come first. -/
def members (inner : Inner) (n : Nat) (done : Members) (s : Text) (h : s.length < n) :
    Except Stop (Members × Shorter n) :=
  match memberName s with
  | .error e => .error e
  | .ok (key, ⟨r₁, hr₁⟩) =>
    match inner (skip r₁) with
    | .error e => .error e
    | .ok (v, ⟨r₂, hr₂⟩) =>
      have h₂ : r₂.length < s.length := by
        have := skip_length_le r₁
        omega
      match hd : skip r₂ with
      | .scalar '\x7d' :: t =>
        .ok (Entries.put key v done, ⟨t, by
          have := skip_length_le r₂
          rw [hd] at this
          simp only [List.length_cons] at this
          omega⟩)
      | .scalar ',' :: t =>
        have ht : (skip t).length < s.length := by
          have h₃ := skip_length_le r₂
          have h₄ := skip_length_le t
          rw [hd] at h₃
          simp only [List.length_cons] at h₃
          omega
        members inner n (Entries.put key v done) (skip t) (by omega)
      | t => .error (.malformed .expectingComma t)
termination_by s.length

/-- Reads a value at the start of a text. The reader of contained values is absent where no container
may open any more. -/
def valueWith (inner : Option Inner) (s : Text) : Except Stop (Json × Shorter s.length) :=
  match s with
  | .scalar '"' :: r =>
    match ht : string (.scalar '"' :: r) [] r with
    | .error e => .error e
    | .ok (t, rest) => .ok (str t, ⟨rest, Nat.lt_succ_of_lt (length_of_string ht)⟩)
  | .scalar '[' :: r =>
    match inner with
    | none => .error (.tooDeep .array)
    | some inner =>
      match hs : skip r with
      | .scalar ']' :: t =>
        .ok (arr [], ⟨t, by
          have := skip_length_le r
          rw [hs] at this
          simp only [List.length_cons] at this ⊢
          omega⟩)
      | t =>
        match items inner (r.length + 1) [] t (by
            have := skip_length_le r
            rw [hs] at this
            omega) with
        | .error e => .error e
        | .ok (vs, rest) => .ok (arr vs, rest)
  | .scalar '\x7b' :: r =>
    match inner with
    | none => .error (.tooDeep .object)
    | some inner =>
      match hs : skip r with
      | .scalar '\x7d' :: t =>
        .ok (obj [], ⟨t, by
          have := skip_length_le r
          rw [hs] at this
          simp only [List.length_cons] at this ⊢
          omega⟩)
      | t =>
        match members inner (r.length + 1) [] t (by
            have := skip_length_le r
            rw [hs] at this
            omega) with
        | .error e => .error e
        | .ok (ms, rest) => .ok (obj ms, rest)
  | s =>
    match ha : atom? s with
    | none => .error (.malformed .expectingValue s)
    | some (.error e, _) => .error e
    | some (.ok v, rest) => .ok (v, ⟨rest, atom?_length_lt ha⟩)

/-- Reads a value at the start of a text, with containers nested at most `depth` deep. -/
def value : (depth : Nat) → Inner
  | 0 => valueWith none
  | depth + 1 => valueWith (some (value depth))

/-- Reads the one value of a document. -/
def document (room : Nat) (text : Text) : Except Stop Json :=
  match text with
  | .scalar '\uFEFF' :: _ => .error (.malformed .byteOrderMark text)
  | _ =>
    match value room (skip text) with
    | .error e => .error e
    | .ok (v, rest) =>
      match skip rest.val with
      | [] => .ok v
      | t => .error (.malformed .extraData t)

/-- The place of a rest in its text. -/
def locate (fault : Fault) (text rest : Text) : SyntaxError :=
  let before := text.take (text.length - rest.length)
  { fault
    line := before.count (.scalar '\n') + 1
    column := (before.reverse.takeWhile (· ≠ .scalar '\n')).length + 1
    offset := before.length }

/-- Reads a document, or says why it is none. -/
def read (room : Nat) (text : Text) : Except ReadError Json :=
  match document room text with
  | .ok v => .ok v
  | .error (.malformed fault rest) => .error (.malformed (locate fault text rest))
  | .error (.tooDeep container) => .error (.tooDeep container)
  | .error (.tooManyDigits count) => .error (.tooManyDigits (some count))

end Grimoire.Json
