import Grimoire.Console.Wrap
import Grimoire.Failure

/-!
# Markup

Texts that are printed may hold marks in brackets, which open and close styles and are not printed
themselves. A mark starts with a small letter, a hash, a slash or an at sign; a slash closes the style
that it names, or the last one. A backslash before a mark makes it plain text. Some names between colons
stand for pictures. What the styles and the pictures are is a matter of the console (`Markup.Rules`).

Main statement: `Markup.Rules.plain_of_noBracket` (a text without brackets has no marks).
-/

namespace Grimoire.Markup

/-- What a text consists of. -/
inductive Piece where
  | plain (t : Text)
  | mark (position : Nat) (body : Text)
  deriving DecidableEq

/-- Whether a code point may start a mark. -/
def startsMark : CodePoint → Bool := CodePoint.satisfies fun c =>
  ('a' ≤ c && c ≤ 'z') || c == '#' || c == '/' || c == '@'

/-- Whether a code point ends the body of a mark, or breaks it off. -/
def isBracket (c : CodePoint) : Bool := c = .scalar '[' ∨ c = .scalar ']'

/-- The body of the mark at the start of a text. -/
def markBody? : Text → Option Text
  | .scalar '[' :: c :: t =>
    if startsMark c then
      match t.dropWhile fun c => !isBracket c with
      | .scalar ']' :: _ => some (c :: t.takeWhile fun c => !isBracket c)
      | _ => none
    else none
  | _ => none

/-- The backslashes at the start of a text. -/
def slashes (t : Text) : Nat := (t.takeWhile (· = .scalar '\\')).length

/-- Plain text as a piece, if there is any; the text is given in reverse. -/
def flush (reversed : Text) : List Piece :=
  if reversed.isEmpty then [] else [.plain reversed.reverse]

/-- What a mark with backslashes before it means. Two backslashes are one; a single one makes the mark
plain. -/
def markPieces (position count : Nat) (body : Text) : List Piece :=
  let kept := List.replicate (count / 2) (CodePoint.scalar '\\')
  (if kept.isEmpty then [] else [.plain kept])
    ++ [if count % 2 = 1 then .plain (.scalar '[' :: body ++ [.scalar ']'])
      else .mark (position + count / 2 * 2) body]

/-- The pieces of a text from a position on; plain text before it is given in reverse. -/
def piecesFrom (reversed : Text) (position : Nat) (t : Text) : List Piece :=
  match t with
  | [] => flush reversed
  | c :: rest =>
    let count := slashes (c :: rest)
    match markBody? ((c :: rest).drop count) with
    | some body =>
      let size := count + body.length + 2
      flush reversed ++ markPieces position count body
        ++ piecesFrom [] (position + size) (rest.drop (size - 1))
    | none => piecesFrom (c :: reversed) (position + 1) rest
termination_by t.length
decreasing_by
  · simp only [List.length_drop, List.length_cons]
    omega
  · simp only [List.length_cons]
    omega

/-- Brackets that no mark holds lose the backslash before them. -/
def dropSlashes : Text → Text
  | [] => []
  | .scalar '\\' :: .scalar '[' :: t => .scalar '[' :: dropSlashes t
  | c :: t => c :: dropSlashes t

/-- The endings of a name that ask for a form of a picture. -/
def forms : List (Text × Text) := [("-text", "\uFE0E"), ("-emoji", "\uFE0F")]

/-- The name of a mark, which ends before an equals sign. -/
def markName (body : Text) : Text := body.takeWhile (· ≠ .scalar '=')

/-- The styles that the program itself asks for. -/
def ownStyles : List Text := ["red", "green", "yellow"]

/-- Whether a piece is no mark but one that opens or closes a style of the program. -/
def Piece.isOwn : Piece → Bool
  | .plain _ => true
  | .mark _ body => ownStyles.any fun style => body = style ∨ body = .scalar '/' :: style

/-- What the console knows: the name of a style that a text defines, or the message of the failure to
make sense of it; what is wrong with the call behind an equals sign; what stops the drawing of a text with
marks when it is wrapped; and the picture that a name stands for. Nothing goes wrong about the styles of
the program, and pictures can be encoded and take no more room than their names between colons. -/
structure Rules where
  style : Text → Except Text Text
  callFault? : Text → Option Text
  drawingFault? : (limit : Nat) → Console.Overflow → Console.Justify → (isWhole : Bool) → Text →
    Option Text
  picture? : Text → Option Text
  style_own : ∀ t ∈ ownStyles, style t = .ok t
  drawn_own : ∀ limit overflow justify isWhole t, (piecesFrom [] 0 t).all Piece.isOwn = true →
    drawingFault? limit overflow justify isWhole t = none
  picture_brief : ∀ name t, picture? name = some t → t.length ≤ name.length + 2
  picture_encodable : ∀ name t, picture? name = some t → t.isEncodable = true

/-- A style that is open: its name, and what stands behind the equals sign. -/
structure OpenStyle where
  name : Text
  call : Text
  deriving DecidableEq

namespace Rules

variable (rules : Rules)

/-- The picture in some form that a name between colons stands for. -/
def pictureInForm? (name : Text) : Option Text :=
  match forms.find? fun form => form.1.isSuffixOf name with
  | some (ending, mark) => (rules.picture? (name.take (name.length - ending.length))).map (· ++ mark)
  | none => rules.picture? name

/-- Puts pictures in the places of their names. -/
def withPictures (t : Text) : Text :=
  match t with
  | [] => []
  | .scalar ':' :: rest =>
    let isName (c : CodePoint) : Bool := c ≠ .scalar ':' ∧ !Text.isBlank c
    let name := rest.takeWhile isName
    match rest.drop name.length with
    | .scalar ':' :: _ =>
      (rules.pictureInForm? name).getD (.scalar ':' :: name ++ [.scalar ':'])
        ++ withPictures (rest.drop (name.length + 1))
    | _ => .scalar ':' :: withPictures rest
  | c :: rest => c :: withPictures rest
termination_by t.length
decreasing_by
  all_goals simp only [List.length_drop, List.length_cons]
  all_goals omega

/-- The style that a mark opens. -/
def opened (body : Text) : Except MarkupFault OpenStyle :=
  match rules.style (markName body) with
  | .ok name => .ok ⟨name, body.drop ((markName body).length + 1)⟩
  | .error message => .error (.style message)

/-- Leaves a style. If its name starts with an at sign, there is a call to make sense of. -/
def leave (style : OpenStyle) : Except MarkupFault Unit :=
  if style.name.head? = some (.scalar '@') ∧ style.call ≠ [] then
    match rules.callFault? style.call with
    | some message => .error (.call message)
    | none => .ok ()
  else .ok ()

/-- Takes the style that a mark closes from the open ones, the last one first. -/
def close (position : Nat) (body : Text) (opened : List OpenStyle) :
    Except MarkupFault (List OpenStyle) := do
  let name := Text.trim ((markName body).drop 1)
  if name.isEmpty then
    match opened with
    | [] => throw (.nothingToClose position)
    | style :: rest =>
      rules.leave style
      return rest
  else
    match rules.style name with
    | .error message => throw (.style message)
    | .ok name =>
      match opened.find? fun style => style.name = name with
      | none => throw (.notOpen body position)
      | some style =>
        rules.leave style
        return opened.eraseP fun style => style.name = name

/-- The text that pieces print as, given the styles that are open. -/
def printed (opened : List OpenStyle) : List Piece → Except MarkupFault Text
  | [] => .ok []
  | .plain t :: rest => (rules.withPictures (dropSlashes t) ++ ·) <$> printed opened rest
  | .mark position body :: rest => do
    if body.head? = some (.scalar '/') then printed (← rules.close position body opened) rest
    else printed ((← rules.opened body) :: opened) rest

end Rules

/-- Whether a code point rules the terminal and is left out. -/
def isControl (c : CodePoint) : Bool := [7, 8, 11, 12, 13].contains c.val

/-- The text that is printed for a text with marks. -/
def Rules.plain (rules : Rules) (t : Text) : Except MarkupFault Text :=
  (List.filter fun c => !isControl c) <$> rules.printed [] (piecesFrom [] 0 t)

/-- What is drawn, unless something stops it. -/
def drawn {α : Type} (fault? : Option Text) (a : α) : Except MarkupFault α :=
  match fault? with
  | some message => .error (.style message)
  | none => .ok a

/-- The lines of a text with marks. Its marks are read before it is drawn. -/
def Rules.lines (rules : Rules) (limit : Nat) (overflow : Console.Overflow)
    (justify : Console.Justify) (isWhole : Bool) (t : Text) : Except MarkupFault (List Text) := do
  let shown ← rules.plain t
  drawn (rules.drawingFault? limit overflow justify isWhole t)
    (Console.wrap limit overflow justify isWhole shown)

theorem markBody?_eq_none {t : Text} (h : CodePoint.scalar '[' ∉ t) : markBody? t = none := by
  unfold markBody?
  split
  · exact absurd (List.mem_cons_self ..) h
  · rfl

theorem piecesFrom_of_noBracket {t : Text} (h : CodePoint.scalar '[' ∉ t) (reversed : Text)
    (position : Nat) : piecesFrom reversed position t = flush (t.reverse ++ reversed) := by
  induction t generalizing reversed position with
  | nil =>
    rw [piecesFrom]
    rfl
  | cons c t ih =>
    rw [piecesFrom]
    have hdrop : CodePoint.scalar '[' ∉ (c :: t).drop (slashes (c :: t)) :=
      fun hm => h (List.mem_of_mem_drop hm)
    simp only [markBody?_eq_none hdrop]
    rw [ih fun hm => h (List.mem_cons_of_mem _ hm)]
    simp

theorem Rules.plain_of_noBracket (rules : Rules) {t : Text} (h : CodePoint.scalar '[' ∉ t) :
    rules.plain t = .ok ((rules.withPictures (dropSlashes t)).filter fun c => !isControl c) := by
  unfold plain
  rw [piecesFrom_of_noBracket h]
  cases t with
  | nil => simp [flush, printed, dropSlashes, withPictures, Functor.map, Except.map]
  | cons c t =>
    simp [flush, printed, Functor.map, Except.map]

end Grimoire.Markup
