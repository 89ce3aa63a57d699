import Grimoire.Entries
import Grimoire.Text.Printable

/-!
# Patterns

Whether a text is a regular expression: groups and sets are closed, repetitions have something to
repeat, escapes have a meaning, references name groups that are there, and what is looked for behind
the current place has a fixed width. The checker reads tokens, which are code points or escapes, and
keeps the widths of what it has read.

Main statement: `Pattern.isPattern_nil` (the empty text is a pattern).
-/

namespace Grimoire.Pattern

/-- A code point or an escape. -/
inductive Token where
  | plain (c : CodePoint)
  | escaped (c : CodePoint)
  deriving DecidableEq

/-- The token of a character that stands for itself. -/
def Token.char (c : Char) : Token := plain (.scalar c)

/-- The tokens of a text; a backslash may not be the last code point. -/
def tokens : Text → Option (List Token)
  | [] => some []
  | .scalar '\\' :: t =>
    match t with
    | [] => none
    | c :: t => (tokens t).map (.escaped c :: ·)
  | c :: t => (tokens t).map (.plain c :: ·)

/-- How many code points a pattern takes: at least and, unless there is no bound, at most. -/
structure Width where
  least : Nat
  most : Option Nat
  deriving DecidableEq

namespace Width

/-- A fixed width. -/
def exactly (n : Nat) : Width := ⟨n, some n⟩

/-- The width of two patterns one after the other. -/
def append (a b : Width) : Width :=
  ⟨a.least + b.least, a.most.bind fun m => b.most.map (m + ·)⟩

/-- The width of either of two patterns. -/
def either (a b : Width) : Width :=
  ⟨min a.least b.least, a.most.bind fun m => b.most.map (max m ·)⟩

/-- The width of a pattern that is repeated. -/
def times (a : Width) (least : Nat) (most : Option Nat) : Width :=
  ⟨a.least * least,
    if a.most = some 0 ∨ most = some 0 then some 0 else a.most.bind fun m => most.map (m * ·)⟩

/-- Whether a width is fixed. -/
def isFixed (a : Width) : Bool := a.most = some a.least

end Width

/-- What repetition may follow: nothing that can be repeated, a repetition, or anything else. -/
inductive Last where
  | nothing
  | repeated
  | item
  deriving DecidableEq

/-- What has been read of a pattern, and what is still to be read. -/
structure Scan where
  rest : List Token
  /-- The widths of the groups in order; groups that are still open have none. -/
  groups : List (Option Width)
  names : Entries Nat
  /-- Numbers of groups that conditions ask for. -/
  asked : List Nat
  /-- The number of groups before the outermost place that is looked for behind. -/
  behind : Option Nat
  verbose : Bool

/-- A step of reading that may refuse. -/
abbrev Reader (α : Type) := StateT Scan Option α

/-- The next token, which is not consumed. -/
def peek : Reader (Option Token) := return (← get).rest.head?

/-- Consumes a token. -/
def advance : Reader Unit := modify fun s => { s with rest := s.rest.drop 1 }

/-- Consumes the next token, which has to be there. -/
def take : Reader Token := do
  match ← peek with
  | none => failure
  | some token => advance; return token

/-- Consumes a character if it is next. -/
def accept (c : Char) : Reader Bool := do
  if (← peek) = some (.char c) then advance; return true
  else return false

/-- Consumes a character, which has to be next. -/
def expect (c : Char) : Reader Unit := do
  unless ← accept c do failure

/-- Consumes the plain characters at the front that satisfy `p`, at most `count`. -/
def takeChars (p : Char → Bool) : (count : Nat) → Reader (List Char)
  | 0 => return []
  | count + 1 => do
    match ← peek with
    | some (.plain (.scalar c)) =>
      if p c then
        advance
        return c :: (← takeChars p count)
      else return []
    | _ => return []

/-- Consumes tokens up to a character, which is consumed too; the tokens have to be plain. -/
def takeUntil (c : Char) : (count : Nat) → Reader Text
  | 0 => failure
  | count + 1 => do
    match ← take with
    | .escaped _ => failure
    | .plain d => if d = .scalar c then return [] else return d :: (← takeUntil c count)

/-- The number of tokens that are left. -/
def left : Reader Nat := return (← get).rest.length

/-- The value of a hexadecimal digit, 16 for any other character. -/
def hexValue (c : Char) : Nat :=
  if '0' ≤ c ∧ c ≤ '9' then c.toNat - 48
  else if 'a' ≤ c ∧ c ≤ 'f' then c.toNat - 87
  else if 'A' ≤ c ∧ c ≤ 'F' then c.toNat - 55
  else 16

/-- The number that digits of a base stand for. -/
def number (base : Nat) (digits : List Char) : Nat :=
  digits.foldl (fun n c => n * base + hexValue c) 0

/-- An octal digit. -/
def isOctal (c : Char) : Bool := '0' ≤ c && c ≤ '7'

/-- The code point of an escape with `count` hexadecimal digits. -/
def hexEscape (count : Nat) : Reader Nat := do
  let digits ← takeChars (hexValue · < 16) count
  if digits.length < count then failure
  let n := number 16 digits
  if 0x10FFFF < n then failure
  return n

/-- The escapes that stand for one character. -/
def simpleEscapes : List (Char × Nat) :=
  [('a', 7), ('b', 8), ('f', 12), ('n', 10), ('r', 13), ('t', 9), ('v', 11), ('\\', 92)]

/-- Reads the rest of an escape by number or by name that stands for a code point. -/
def numberedEscape (c : Char) : Reader (Option Nat) := do
  match c with
  | 'x' => return some (← hexEscape 2)
  | 'u' => return some (← hexEscape 4)
  | 'U' => return some (← hexEscape 8)
  | 'N' =>
    expect '\x7b'
    let name ← takeUntil '\x7d' (← left)
    if name = [] then failure
    return some 0xFFFD
  | _ => return none

/-- Reads the rest of an escape inside a set: a code point, or nothing for a class. -/
def setEscape (c : CodePoint) : Reader (Option Nat) := do
  match c with
  | .surrogate _ => return some c.val
  | .scalar d =>
    if let some (_, n) := simpleEscapes.find? fun entry => entry.1 = d then return some n
    if "dDsSwW".toList.contains d then return none
    if let some n ← numberedEscape d then return some n
    if isOctal d then
      let n := number 8 (d :: (← takeChars isOctal 2))
      if 0o377 < n then failure
      return some n
    if d.isAlphanum then failure
    return some c.val

/-- Reads an item of a set: a code point, or nothing for a class. -/
def setItem : Token → Reader (Option Nat)
  | .plain c => return some c.val
  | .escaped c => setEscape c

/-- Reads a set behind its bracket and its sign of negation; a closing bracket counts as an item if it
comes first. -/
def charSet : (fuel : Nat) → (isFirst : Bool) → Reader Unit
  | 0, _ => failure
  | fuel + 1, isFirst => do
    let token ← take
    if token = .char ']' ∧ !isFirst then return
    let low ← setItem token
    if ← accept '-' then
      let token ← take
      if token = .char ']' then return
      let high ← setItem token
      match low, high with
      | some low, some high => if high < low then failure
      | _, _ => failure
    charSet fuel false

/-- Whether a text names a group: letters, digits and underscores, no digit first. -/
def isGroupName (name : Text) : Bool :=
  let isStart (c : CodePoint) : Bool :=
    c = .scalar '_' || c.satisfies Char.isAlpha || (0x80 ≤ c.val && Text.isPrintable c)
  let isPart (c : CodePoint) : Bool := isStart c || c.satisfies Char.isDigit
  match name with
  | [] => false
  | c :: rest => isStart c && rest.all isPart

/-- A reference to a group, which has to be closed and not a part of what is looked for behind. -/
def reference (n : Nat) : Reader Width := do
  let s ← get
  if n = 0 then failure
  match s.groups[n - 1]? with
  | some (some width) =>
    if s.behind.any (· < n) then failure
    return width
  | _ => failure

/-- Reads the rest of an escape outside of sets. -/
def escape (c : CodePoint) : Reader (Last × Width) := do
  let one : Last × Width := (.item, .exactly 1)
  match c with
  | .surrogate _ => return one
  | .scalar d =>
    if "AbBZ".toList.contains d then return (.nothing, .exactly 0)
    if "dDsSwWafnrtv\\".toList.contains d then return one
    if (← numberedEscape d).isSome then return one
    if d = '0' then
      let _ ← takeChars isOctal 2
      return one
    if d.isDigit then
      match ← takeChars Char.isDigit 1 with
      | [] => return (.item, ← reference (number 10 [d]))
      | e :: _ =>
        if isOctal d ∧ isOctal e then
          match ← takeChars isOctal 1 with
          | [] => return (.item, ← reference (number 10 [d, e]))
          | f :: _ => if 0o377 < number 8 [d, e, f] then failure else return one
        else return (.item, ← reference (number 10 [d, e]))
    if d.isAlpha then failure
    return one

/-- Letters that switch a way of matching. -/
def isFlag (c : Char) : Bool := "imsxauL".toList.contains c

/-- Reads letters of switches up to one of `ends`, which is consumed too. -/
def flags (ends : List Char) : (count : Nat) → Reader (List Char × Char)
  | 0 => failure
  | count + 1 => do
    match ← take with
    | .plain (.scalar c) =>
      if ends.contains c then return ([], c)
      if !isFlag c then failure
      let (letters, last) ← flags ends count
      return (c :: letters, last)
    | _ => failure

/-- Switches in front of a part, or for the whole pattern. -/
inductive Switches where
  | everywhere (verbose : Bool)
  | inside (verbose : Option Bool)

/-- Reads switches; those for the width of characters exclude each other and cannot be switched off. -/
def switches : Reader Switches := do
  let (on, last) ← flags ['-', ':', ')'] (← left)
  if on.contains 'L' ∨ (on.contains 'a' ∧ on.contains 'u') then failure
  if last = ')' then
    if on = [] then failure
    return .everywhere (on.contains 'x')
  if last = ':' then
    if on = [] then failure
    return .inside (if on.contains 'x' then some true else none)
  let (off, _) ← flags [':'] (← left)
  if off = [] ∨ off.any (fun c => "auL".toList.contains c || on.contains c) then failure
  return .inside (if off.contains 'x' then some false else if on.contains 'x' then some true else none)

/-- Skips a comment behind its sign; escapes do not end it. -/
def comment : (count : Nat) → Reader Unit
  | 0 => failure
  | count + 1 => do
    if (← take) = .char ')' then return
    comment count

/-- Skips the rest of a line. -/
def skipLine : (count : Nat) → Reader Unit
  | 0 => return
  | count + 1 => do
    match ← peek with
    | none => return
    | some token =>
      advance
      unless token = .char '\n' do skipLine count

/-- Opens a group and gives its number; a name may be given once. -/
def openGroup (name : Option Text) : Reader Nat := do
  let s ← get
  let n := s.groups.length + 1
  if name.any s.names.hasKey then failure
  modify fun s => { s with
    groups := s.groups ++ [none]
    names := (name.map fun name => s.names.put name n).getD s.names }
  return n

/-- Closes a group. -/
def closeGroup (n : Nat) (width : Width) : Reader Unit :=
  modify fun s => { s with groups := s.groups.set (n - 1) (some width) }

/-- Reads bounds of a repetition behind their brace. Without a closing brace they are no bounds, and
nothing is consumed. -/
def bounds : Reader (Option (Nat × Option Nat)) := do
  let before ← get
  let count ← left
  let low ← takeChars Char.isDigit count
  let high ← if ← accept ',' then takeChars Char.isDigit count else pure low
  if !(← accept '\x7d') then
    MonadStateOf.set before
    return none
  let least := number 10 low
  let most := if high = [] then none else some (number 10 high)
  if most.any (· < least) then failure
  return some (least, most)

/-- Reads the bounds of a repetition, if the token starts one. -/
def repetition (token : Token) : Reader (Option (Nat × Option Nat)) := do
  if token = .char '?' then return some (0, some 1)
  if token = .char '*' then return some (0, none)
  if token = .char '+' then return some (1, none)
  if token = .char '\x7b' ∧ (← peek) ≠ some (.char '\x7d') then bounds else return none

/-- The number of a group that a condition names. -/
def groupNumber? (names : Entries Nat) (name : Text) : Option Nat :=
  if isGroupName name then names.find? name
  else if name ≠ [] ∧ name.all (CodePoint.satisfies Char.isDigit) then
    some (name.foldl (fun n c => 10 * n + (c.val - 48)) 0)
  else none

/-- A condition on a group: its name, or its number. A number may come before its group, unless the
condition is a part of what is looked for behind. -/
def condition : Reader Unit := do
  let name ← takeUntil ')' (← left)
  let s ← get
  match groupNumber? s.names name with
  | none | some 0 => failure
  | some n =>
    if s.behind.isSome then let _ ← reference n
    modify fun s => { s with asked := n :: s.asked }

mutual

/-- Reads alternatives up to the end or a closing parenthesis. -/
def alternatives (fuel : Nat) (verbose nested first : Bool) : Reader Width :=
  match fuel with
  | 0 => failure
  | fuel + 1 => do
    let width ← sequence fuel verbose first .nothing (.exactly 0) (.exactly 0)
    if ← accept '|' then
      let s ← get
      return width.either (← alternatives fuel (if nested then verbose else s.verbose) nested false)
    else return width

/-- Reads items up to a bar, a closing parenthesis or the end. The item before counts as `last` with a
width of its own, because it may be repeated. -/
def sequence (fuel : Nat) (verbose first : Bool) (last : Last) (done width : Width) :
    Reader Width :=
  match fuel with
  | 0 => failure
  | fuel + 1 => do
    match ← peek with
    | none => return done.append width
    | some token =>
      if token = .char '|' ∨ token = .char ')' then return done.append width
      advance
      let next (last : Last) (w : Width) : Reader Width :=
        sequence fuel verbose false last (done.append width) w
      match token with
      | .escaped c =>
        let (last, w) ← escape c
        next last w
      | .plain c =>
        if verbose ∧ " \t\n\r\x0b\x0c".toList.any (c = .scalar ·) then
          sequence fuel verbose first last done width
        else if verbose ∧ c = .scalar '#' then
          skipLine (← left)
          sequence fuel verbose first last done width
        else if c = .scalar '[' then
          let _ ← accept '^'
          charSet fuel true
          next .item (.exactly 1)
        else if c = .scalar '^' ∨ c = .scalar '$' then next .nothing (.exactly 0)
        else if c = .scalar '(' then
          match ← group fuel verbose first with
          | some w => next .item w
          | none =>
            let s ← get
            sequence fuel (verbose || (first && s.verbose)) first last done width
        else
          match ← repetition token with
          | none =>
            if c = .scalar '?' ∨ c = .scalar '*' ∨ c = .scalar '+' then failure
            next .item (.exactly 1)
          | some (least, most) =>
            if last ≠ .item then failure
            let isLazy ← accept '?'
            unless isLazy do let _ ← accept '+'
            sequence fuel verbose false .repeated done (width.times least most)

/-- Reads a group behind its parenthesis; comments and switches for the whole pattern are no items. -/
def group (fuel : Nat) (verbose first : Bool) : Reader (Option Width) :=
  match fuel with
  | 0 => failure
  | fuel + 1 => do
    if !(← accept '?') then
      let n ← openGroup none
      let width ← alternatives fuel verbose true false
      expect ')'
      closeGroup n width
      return some width
    match ← peek with
    | some (.plain (.scalar c)) =>
      match c with
      | 'P' =>
        advance
        if ← accept '<' then
          let name ← takeUntil '>' (← left)
          if !isGroupName name then failure
          let n ← openGroup (some name)
          let width ← alternatives fuel verbose true false
          expect ')'
          closeGroup n width
          return some width
        else
          expect '='
          let name ← takeUntil ')' (← left)
          match (← get).names.find? name with
          | none => failure
          | some n => return some (← reference n)
      | ':' | '>' =>
        advance
        let width ← alternatives fuel verbose true false
        expect ')'
        return some width
      | '#' =>
        advance
        comment (← left)
        return none
      | '=' | '!' =>
        advance
        let _ ← alternatives fuel verbose true false
        expect ')'
        return some (.exactly 0)
      | '<' =>
        advance
        let isEqual ← accept '='
        unless isEqual do expect '!'
        let before := (← get).behind
        modify fun s => { s with behind := some (before.getD s.groups.length) }
        let width ← alternatives fuel verbose true false
        expect ')'
        modify fun s => { s with behind := before }
        if !width.isFixed then failure
        return some (.exactly 0)
      | '(' =>
        advance
        condition
        let yes ← sequence fuel verbose false .nothing (.exactly 0) (.exactly 0)
        let no ← if ← accept '|' then
            sequence fuel verbose false .nothing (.exactly 0) (.exactly 0)
          else pure (.exactly 0)
        expect ')'
        return some (yes.either no)
      | _ =>
        match ← switches with
        | .everywhere turnsVerbose =>
          if !first then failure
          modify fun s => { s with verbose := s.verbose || turnsVerbose }
          return none
        | .inside change =>
          let width ← alternatives fuel (change.getD verbose) true false
          expect ')'
          return some width
    | _ => failure

end

/-- Whether a text is a pattern. -/
def isPattern (t : Text) : Bool :=
  match tokens t with
  | none => false
  | some tokens =>
    let start : Scan := ⟨tokens, [], [], [], none, false⟩
    match (alternatives (4 * tokens.length + 4) false false true).run start with
    | none => false
    | some (_, s) => s.rest = [] && s.asked.all (· ≤ s.groups.length)

theorem isPattern_nil : isPattern [] = true := by decide

end Grimoire.Pattern
