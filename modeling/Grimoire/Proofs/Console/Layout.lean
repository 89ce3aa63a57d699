import Grimoire.Proofs.Console.Verbatim
import Grimoire.Proofs.Console.Wrapping

/-!
# Tables show their texts

A table prints its rows one below the other, and the texts of a row side by side, each on as many lines
as it is wrapped to (`Console.ShowsRows`). It does so for every text that is printed as it is and has
room in its column (`Table.lines_of_isLegible`).
-/

namespace Grimoire

namespace Console

/-- Whether lines show a text with a space on either side. -/
def ShowsCell (t : Text) (lines : List Text) : Prop :=
  ∃ shown, Shows t shown ∧ lines = shown.map fun line : Text => " " ++ line ++ " "

/-- Whether lines show texts side by side. Every line has a part for each text: the next line of the text,
or spaces where the text has come to its end. -/
def ShowsRow (texts lines : List Text) : Prop :=
  ∃ cells : List (List Text), List.Forall₂ ShowsCell texts cells ∧
    (∀ shown ∈ cells, shown.length ≤ lines.length) ∧
    ∀ (i : Nat) line, lines[i]? = some line → ∃ parts : List Text,
      line = .scalar '│' :: Text.join [.scalar '│'] parts ++ [.scalar '│'] ∧
      List.Forall₂ (fun shown part => ∃ w, part = shown[i]?.getD (spaces w)) cells parts

/-- Whether lines show rows of texts one below the other, behind a head and before a last line. -/
def ShowsRows (rows : List (List Text)) (lines : List Text) : Prop :=
  ∃ head blocks last, lines = head ++ List.flatten blocks ++ [last] ∧ List.Forall₂ ShowsRow rows blocks

/-! ## Rows -/

theorem Shows.map {t : Text} {shown : List Text} {f : Text → Text} (shows : Shows t shown)
    (same : ∀ line, Text.trimRight (f line) = Text.trimRight line) : Shows t (shown.map f) := by
  obtain ⟨pieces, whole, each⟩ := shows
  refine ⟨pieces, whole, ?_⟩
  rw [List.forall₂_map_left_iff]
  exact each.imp fun line piece equal => (same line).trans equal

theorem trimRight_fill (width : Nat) (t : Text) :
    Text.trimRight (fill width t) = Text.trimRight t :=
  Text.trimRight_append_blank t fun c member => by
    rw [List.eq_of_mem_replicate member]
    decide

/-- A cell shows its text if there is room for it in the column. -/
theorem showsCell_cellLines {column : Column} {w : Nat} {t : Text} (justify : column.justify = .plain)
    (isWhole : column.isWhole = false) (kept : IsKept (w - padding) .dots t) :
    ShowsCell t (cellLines column w t) := by
  refine ⟨_, (shows_wrap kept).map (trimRight_fill (w - padding)), ?_⟩
  rw [cellLines, justify, isWhole, List.map_map]
  rfl

theorem length_le_foldl_max (cells : List (List Text)) (least : Nat) :
    least ≤ cells.foldl (fun height lines => max height lines.length) least ∧
      ∀ lines ∈ cells,
        lines.length ≤ cells.foldl (fun height lines => max height lines.length) least := by
  induction cells generalizing least with
  | nil => simp
  | cons first cells ih =>
    obtain ⟨base, each⟩ := ih (max least first.length)
    rw [List.foldl_cons, List.forall_mem_cons]
    exact ⟨by omega, by omega, each⟩

theorem forall₂_zip (i : Nat) {widths : List Nat} {cells : List (List Text)}
    (same : widths.length = cells.length) :
    List.Forall₂ (fun shown part => ∃ w, part = shown[i]?.getD (spaces w)) cells
      ((widths.zip cells).map fun cell => cell.2[i]?.getD (spaces cell.1)) := by
  induction widths generalizing cells with
  | nil =>
    obtain rfl := List.length_eq_zero_iff.mp same.symm
    exact .nil
  | cons w widths ih =>
    cases cells with
    | nil => cases same
    | cons shown cells => exact .cons ⟨w, rfl⟩ (ih (Nat.succ.inj same))

theorem showsRow_rowLines {texts : List Text} {widths : List Nat} {cells : List (List Text)}
    (same : widths.length = cells.length) (each : List.Forall₂ ShowsCell texts cells) :
    ShowsRow texts (rowLines '│' widths cells) := by
  refine ⟨cells, each, fun shown member => ?_, fun i line found => ?_⟩
  · rw [rowLines, List.length_map, List.length_range]
    exact (length_le_foldl_max cells 1).2 shown member
  · obtain ⟨j, place, rfl⟩ := List.mem_map.mp (List.mem_of_getElem? found)
    obtain ⟨inside, value⟩ := List.getElem?_eq_some_iff.mp found
    refine ⟨_, value.symm.trans ?_, forall₂_zip i same⟩
    simp [rowLines]

/-! ## Widths -/

theorem length_share (total ratioSum : Nat) (items : List (Nat × Nat × Nat)) :
    (share total ratioSum items).length = items.length := by
  induction items generalizing total ratioSum with
  | nil => rfl
  | cons item items ih =>
    obtain ⟨ratio, bound, value⟩ := item
    simp only [share]
    split <;> split <;> simp [ih]

theorem length_reduce (total : Nat) (items : List (Nat × Nat × Nat)) :
    (reduce total items).length = items.length := by
  simp only [reduce]
  split
  · simp
  · exact length_share ..

theorem length_narrow (limit fuel : Nat) (columns : List (Nat × Bool)) :
    (narrow limit fuel columns).length = columns.length := by
  induction fuel generalizing columns with
  | zero => simp [narrow]
  | succ fuel ih =>
    simp only [narrow]
    split
    · simp
    · split
      · simp
      · simp [ih, length_reduce]

theorem length_columnWidths (limit : Nat) (columns : List (List Text × Bool)) :
    (columnWidths limit columns).length = columns.length := by
  simp only [columnWidths]
  split
  · simp
  · split <;> simp [length_narrow, length_reduce]

end Console

namespace Table

open Console

/-- The widths of the columns of a table whose texts are printed as they are. -/
def widths (table : Table) : List Nat := widthsOf table.filled

/-- Whether a table has columns of wrapped texts that start on the left, and each row a text for every
column. -/
structure IsRegular (table : Table) : Prop where
  some : table.columns ≠ []
  columns : ∀ column ∈ table.columns, column.justify = .plain ∧ column.isWhole = false
  rows : ∀ row ∈ table.rows, row.length = table.columns.length

/-- Whether a text is printed as it is and can be encoded. -/
structure IsLegibleText (rules : Markup.Rules) (t : Text) : Prop where
  plain : Markup.IsPlain rules t
  encodable : t.isEncodable = true

instance {rules : Markup.Rules} : DecidablePred (IsLegibleText rules) := fun t =>
  decidable_of_iff (Markup.IsPlain rules t ∧ t.isEncodable = true)
    ⟨fun h => ⟨h.1, h.2⟩, fun h => ⟨h.plain, h.encodable⟩⟩

/-- Whether the texts of a table are printed as they are, can be encoded and have room in their
columns. -/
structure IsLegible (rules : Markup.Rules) (table : Table) : Prop where
  title : IsLegibleText rules table.title
  headers : ∀ column ∈ table.columns, IsLegibleText rules column.header
  cells : ∀ row ∈ table.rows, ∀ t ∈ row, IsLegibleText rules t
  room : ∀ column ∈ table.filled.zip table.widths, ∀ t ∈ column.1.2,
    IsKept (column.2 - padding) .dots t

variable {rules : Markup.Rules} {table : Table}

/-- A table in which no line is wider than its column need not be wrapped. -/
theorem IsLegible.of_fits (title : IsLegibleText rules table.title)
    (headers : ∀ column ∈ table.columns, IsLegibleText rules column.header)
    (cells : ∀ row ∈ table.rows, ∀ t ∈ row, IsLegibleText rules t)
    (fits : ∀ column ∈ table.filled.zip table.widths, ∀ t ∈ column.1.2,
      ∀ line ∈ (Text.lines t).map (expandTabs 0), Console.cells line ≤ column.2 - padding) :
    table.IsLegible rules :=
  ⟨title, headers, cells, fun column member t inside => .of_fits (fits column member t inside)⟩

theorem mapM_eq_ok {α β : Type} {f : α → Except MarkupFault β} {g : α → β} {items : List α}
    (each : ∀ item ∈ items, f item = .ok (g item)) : items.mapM f = .ok (items.map g) := by
  induction items with
  | nil => rfl
  | cons item items ih =>
    rw [List.forall_mem_cons] at each
    rw [List.mapM_cons, each.1, ih each.2]
    rfl

/-- A text in a column is its header, a text in a row or nothing. -/
theorem isLegibleText_filled (legible : table.IsLegible rules) :
    ∀ column ∈ table.filled, ∀ t ∈ column.2, IsLegibleText rules t :=
  forall_filled ⟨Markup.isPlain_nil, rfl⟩ legible.headers legible.cells

theorem lines_of_isPlain (title : Markup.IsPlain rules table.title)
    (cells : ∀ column ∈ table.filled, ∀ t ∈ column.2, Markup.IsPlain rules t) :
    table.lines rules = .ok (tableLines table.title table.filled) := by
  refine lines_of_plain ?_ title.plain
    (drawingFault?_eq_none title.isDrawn fun column member t inside =>
      (cells column member t inside).isDrawn)
  refine (mapM_eq_ok (g := id) fun column member => ?_).trans (by rw [List.map_id])
  have same := mapM_eq_ok (g := id) fun t inside => (cells column member t inside).plain
  rw [List.map_id] at same
  exact congrArg (Prod.mk column.1 <$> ·) same

theorem length_filled (table : Table) : table.filled.length = table.columns.length := by
  simp [filled]

theorem length_widths (table : Table) : table.widths.length = table.columns.length := by
  rw [widths, widthsOf, length_columnWidths, List.length_map, length_filled]

/-- The cells of a row, each on the width of its column. -/
def rowCells (table : Table) (i : Nat) : List (List Text) :=
  (table.filled.zip table.widths).map fun ((column, texts), w) =>
    cellLines column w (texts[i]?.getD [])

theorem length_rowCells (table : Table) (i : Nat) :
    (table.rowCells i).length = table.columns.length := by
  simp [rowCells, length_filled, length_widths]

/-- The cells of a row show its texts. -/
theorem showsCell_rowCells (regular : table.IsRegular) (legible : table.IsLegible rules) {i : Nat}
    {row : List Text} (found : table.rows[i]? = some row) :
    List.Forall₂ ShowsCell row (table.rowCells (i + 1)) := by
  have width := regular.rows row (List.mem_of_getElem? found)
  rw [List.forall₂_iff_get]
  refine ⟨width.trans (length_rowCells table (i + 1)).symm, fun j inside inside' => ?_⟩
  have place : j < table.columns.length := width ▸ inside
  have place' : j < table.widths.length := (length_widths table).symm ▸ place
  have filled : table.filled[j]? = some (table.columns[j],
      table.columns[j].header :: table.rows.map fun row => row[j]?.getD []) := by
    simp [Table.filled, place]
  have item : ((table.columns[j], table.columns[j].header :: table.rows.map fun row => row[j]?.getD []),
      table.widths[j]) ∈ table.filled.zip table.widths :=
    List.mem_of_getElem? (List.getElem?_zip_eq_some.mpr ⟨filled, List.getElem?_eq_getElem place'⟩)
  have cell : (table.rowCells (i + 1)).get ⟨j, inside'⟩
      = cellLines table.columns[j] table.widths[j] (row.get ⟨j, inside⟩) := by
    obtain ⟨_, value⟩ := List.getElem?_eq_some_iff.mp filled
    simp only [rowCells, List.get_eq_getElem, List.getElem_map, List.getElem_zip, value,
      List.getElem?_cons_succ, List.getElem?_map, found, Option.map_some, Option.getD_some,
      List.getElem?_eq_getElem inside]
  have kind := regular.columns _ (List.getElem_mem place)
  rw [cell]
  refine showsCell_cellLines kind.1 kind.2 (legible.room _ item _ (List.mem_cons_of_mem _ ?_))
  refine List.mem_map.mpr ⟨row, List.mem_of_getElem? found, ?_⟩
  rw [List.getElem?_eq_getElem inside]
  rfl

/-- The lines of the rows stand between a head and a last line. -/
theorem tableLines_filled (some : table.columns ≠ []) :
    ∃ head last, tableLines table.title table.filled =
      head ++ ((List.range table.rows.length).map fun i =>
        rowLines '│' table.widths (table.rowCells (i + 1))).flatten ++ [last] := by
  have height : ((table.filled.head?.map fun column => column.2.length).getD 0)
      = table.rows.length + 1 := by
    cases same : table.filled with
    | nil => exact absurd (List.length_eq_zero_iff.mp (length_filled table ▸ same ▸ rfl)) some
    | cons column columns =>
      have member : column ∈ table.filled := by simp [same]
      obtain ⟨item, -, rfl⟩ := List.mem_map.mp member
      simp
  have body : (List.range (table.rows.length + 1)).drop 1
      = (List.range table.rows.length).map (· + 1) := by
    rw [List.range_succ_eq_map, List.drop_one, List.tail_cons]
  unfold tableLines
  dsimp only
  rw [height, body, List.flatMap_map, List.flatMap_def]
  exact ⟨_, _, rfl⟩

/-- A table whose texts are legible shows its rows. -/
theorem lines_of_isLegible (regular : table.IsRegular) (legible : table.IsLegible rules) :
    ∃ lines, table.lines rules = .ok lines ∧ (∀ line ∈ lines, line.isEncodable = true) ∧
      ShowsRows table.rows lines := by
  have texts := isLegibleText_filled legible
  refine ⟨_, lines_of_isPlain legible.title.plain fun column member t inside =>
    (texts column member t inside).plain, isEncodable_tableLines legible.title.encodable
      fun column member t inside => (texts column member t inside).encodable, ?_⟩
  obtain ⟨head, last, lines⟩ := tableLines_filled regular.some
  refine ⟨head, _, last, lines, ?_⟩
  rw [List.forall₂_iff_get]
  refine ⟨by simp, fun i inside inside' => ?_⟩
  simp only [List.get_eq_getElem, List.getElem_map, List.getElem_range]
  exact showsRow_rowLines (by rw [length_widths, length_rowCells])
    (showsCell_rowCells regular legible (List.getElem?_eq_getElem inside))

end Table

end Grimoire
