import Grimoire.Console.Markup
import Grimoire.Console.Wrap

/-!
# Tables

A table has a title, columns with headers, and rows of cells. Columns are as wide as their widest line.
Where that is too wide for the console, the widest columns give way first. All texts may hold marks.

Main statement: `Console.length_border` (a border is as wide as the table).
-/

namespace Grimoire

-- the zero of sums is that of the core library, whatever else is in scope
attribute [local instance (high)] Zero.ofOfNat0

/-- A column: its header, how its cells are placed, and whether its lines are kept whole. -/
structure Column where
  header : Text
  justify : Console.Justify
  isWhole : Bool

/-- A table. -/
structure Table where
  title : Text
  columns : List Column
  rows : List (List Text)

namespace Console

/-- The cells of a line of the console. -/
def lineWidth : Nat := 1000

/-- Whether a code point ends a line when texts are measured. -/
def endsLine (c : CodePoint) : Bool :=
  [0x0A, 0x1C, 0x1D, 0x1E, 0x85, 0x2028, 0x2029].contains c.val

/-- The cells of the widest line of a text. -/
def measure (t : Text) : Nat :=
  let lines := Text.lines (t.map fun c => if endsLine c then .scalar '\n' else c)
  lines.foldl (fun widest line => max widest (cells line)) 0

/-- The spaces beside a cell. -/
def padding : Nat := 2

/-- The width of a column that holds texts, at most `limit`. -/
def columnWidth (limit : Nat) (texts : List Text) : Nat :=
  if limit = 0 then 0
  else min limit (texts.foldl (fun widest t => max widest (measure t)) 0 + padding)

/-- A quotient rounded to the nearest whole number, a half to the even neighbour. -/
def roundHalfEven (num den : Nat) : Nat :=
  let q := num / den
  let r := num % den
  if 2 * r < den then q else if den < 2 * r then q + 1 else if q % 2 = 0 then q else q + 1

/-- Takes `total` from values, each by its ratio and by at most its bound. -/
def share (total ratioSum : Nat) : List (Nat × Nat × Nat) → List Nat
  | [] => []
  | (ratio, bound, value) :: rest =>
    let ratio := if bound = 0 then 0 else ratio
    if 0 < ratio ∧ 0 < ratioSum then
      let part := min bound (roundHalfEven (ratio * total) ratioSum)
      (value - part) :: share (total - part) (ratioSum - ratio) rest
    else value :: share total ratioSum rest

/-- Takes `total` from values by their ratios, each by at most its bound. -/
def reduce (total : Nat) (items : List (Nat × Nat × Nat)) : List Nat :=
  let ratioSum := (items.map fun (ratio, bound, _) => if bound = 0 then 0 else ratio).sum
  if ratioSum = 0 then items.map fun (_, _, value) => value else share total ratioSum items

/-- Narrows the widest of the columns that may give way until all fit. Each step takes something, so
`fuel` need not exceed what has to be taken. -/
def narrow (limit fuel : Nat) (columns : List (Nat × Bool)) : List Nat :=
  let widths := columns.map Prod.fst
  match fuel with
  | 0 => widths
  | fuel + 1 =>
    let excess := widths.sum - limit
    if excess = 0 then widths
    else
      let free := (columns.filter Prod.snd).map Prod.fst
      let widest := free.foldl max 0
      let second := (free.filter (· ≠ widest)).foldl max 0
      if free.isEmpty ∨ widest = second then widths
      else
        let bound := min excess (widest - second)
        let narrowed := reduce excess
          (columns.map fun (w, mayNarrow) => (if mayNarrow ∧ w = widest then 1 else 0, bound, w))
        narrow limit fuel (narrowed.zip (columns.map Prod.snd))

/-- The widths of columns that hold texts, given which of them may give way. -/
def columnWidths (limit : Nat) (columns : List (List Text × Bool)) : List Nat :=
  let natural := columns.map fun (texts, _) => columnWidth limit texts
  if natural.sum ≤ limit then natural
  else
    let narrowed := narrow limit (natural.sum - limit) (natural.zip (columns.map Prod.snd))
    let fitted :=
      if narrowed.sum ≤ limit then narrowed
      else reduce (narrowed.sum - limit) (narrowed.map fun w => (1, w, w))
    (fitted.zip columns).map fun (w, texts, _) => columnWidth w texts

/-- A text with spaces up to a number of cells. -/
def fill (width : Nat) (t : Text) : Text := t ++ spaces (width - cells t)

/-- The lines of a cell on the width of its column. -/
def cellLines (column : Column) (width : Nat) (t : Text) : List Text :=
  let inner := width - padding
  (wrap inner .dots column.justify column.isWhole t).map fun line => " " ++ fill inner line ++ " "

/-- The code points that a border is drawn with. -/
structure Border where
  left : Char
  line : Char
  divider : Char
  right : Char

/-- A line of a border over columns. -/
def border (b : Border) (widths : List Nat) : Text :=
  .scalar b.left
    :: Text.join [.scalar b.divider] (widths.map fun w => List.replicate w (.scalar b.line))
    ++ [.scalar b.right]

/-- The lines of a row, given the lines of its cells. -/
def rowLines (edge : Char) (widths : List Nat) (cells : List (List Text)) : List Text :=
  let height := cells.foldl (fun height lines => max height lines.length) 1
  (List.range height).map fun i =>
    .scalar edge :: Text.join [.scalar edge]
      ((widths.zip cells).map fun (w, lines) => lines[i]?.getD (spaces w)) ++ [.scalar edge]

/-- The widths of columns with all their texts. -/
def widthsOf (columns : List (Column × List Text)) : List Nat :=
  columnWidths (lineWidth - (columns.length + 1))
    (columns.map fun (column, texts) => (texts, !column.isWhole))

/-- The width of a table, given those of its columns. -/
def tableWidth (widths : List Nat) : Nat := widths.sum + widths.length + 1

/-- The lines of a table whose texts have no marks, given the columns with all their texts. -/
def tableLines (title : Text) (columns : List (Column × List Text)) : List Text :=
  let widths := widthsOf columns
  let height := (columns.head?.map fun (_, texts) => texts.length).getD 0
  let row (i : Nat) : List (List Text) :=
    (columns.zip widths).map fun ((column, texts), w) => cellLines column w (texts[i]?.getD [])
  let body := (List.range height).drop 1
  wrap (tableWidth widths) .fold .center false title
    ++ [border ⟨'┏', '━', '┳', '┓'⟩ widths]
    ++ rowLines '┃' widths (row 0)
    ++ [border ⟨'┡', '━', '╇', '┩'⟩ widths]
    ++ body.flatMap (fun i => rowLines '│' widths (row i))
    ++ [border ⟨'└', '─', '┴', '┘'⟩ widths]

end Console

namespace Table

/-- The columns of a table with all their texts. -/
def filled (t : Table) : List (Column × List Text) :=
  (t.columns.zip (List.range t.columns.length)).map fun (column, i) =>
    (column, column.header :: t.rows.map fun row => row[i]?.getD [])

/-- What stops the drawing of a table with marks, given the widths of its columns: the title is drawn
first, and then row by row. -/
def drawingFault? (rules : Markup.Rules) (t : Table) (widths : List Nat) : Option Text :=
  (rules.drawingFault? (Console.tableWidth widths) .fold .center false t.title).or <|
    (List.range (t.rows.length + 1)).findSome? fun i =>
      (t.filled.zip widths).findSome? fun ((column, texts), w) =>
        rules.drawingFault? (w - Console.padding) .dots column.justify column.isWhole
          (texts[i]?.getD [])

/-- The lines of a table. The marks in the columns are read before those in the title. -/
def lines (rules : Markup.Rules) (t : Table) : Except MarkupFault (List Text) := do
  let columns ← t.filled.mapM fun (column, texts) => do
    return (column, ← texts.mapM rules.plain)
  let title ← rules.plain t.title
  Markup.drawn (t.drawingFault? rules (Console.widthsOf columns)) (Console.tableLines title columns)

end Table

namespace Console

theorem length_join (sep : CodePoint) (ts : List Text) (h : ts ≠ []) :
    (Text.join [sep] ts).length = (ts.map List.length).sum + (ts.length - 1) := by
  cases ts with
  | nil => exact absurd rfl h
  | cons t ts =>
    have hflat : (ts.flatMap ([sep] ++ ·)).length = (ts.map List.length).sum + ts.length := by
      induction ts with
      | nil => rfl
      | cons t ts ih =>
        have hih := ih (List.cons_ne_nil _ _)
        simp only [List.flatMap_cons, List.length_append, List.map_cons, List.sum_cons,
          List.length_cons, List.length_nil, hih]
        omega
    simp only [Text.join, List.length_append, hflat, List.map_cons, List.sum_cons, List.length_cons]
    omega

theorem length_border (b : Border) {widths : List Nat} (h : widths ≠ []) :
    (border b widths).length = widths.sum + widths.length + 1 := by
  have hmap : (widths.map fun w => List.replicate w (CodePoint.scalar b.line)) ≠ [] := by
    simpa using h
  have hpos : 0 < widths.length := List.length_pos_iff.mpr h
  simp only [border, List.length_append, List.length_cons, List.length_nil,
    length_join _ _ hmap, List.map_map, List.length_map]
  have hsum : (widths.map (List.length ∘ fun w => List.replicate w (CodePoint.scalar b.line)))
      = widths := by
    conv => rhs; rw [← List.map_id widths]
    exact List.map_congr_left fun w _ => by simp
  rw [hsum]
  omega

end Console

end Grimoire
