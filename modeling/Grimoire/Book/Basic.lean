import Grimoire.Failure
import Grimoire.Spell.Check
import Grimoire.Spell.Wire

/-!
# Books

A book holds spells by identifier, in the order in which they first came. It is written as a JSON array
of their written forms. Reading an array keeps the elements that are spells and tells the others, so
that one bad element cannot hide the rest.

Main statements: `Book.ofItems_append` (an array is read element by element) and `Book.perm_byName`
(the list by name holds every spell once).
-/

namespace Grimoire

/-- Spells by identifier. -/
abbrev Book := Entries Spell

/-- A book that was read from an array, and the elements that are no spells: their positions and how
many problems each has. -/
structure Reading where
  book : Book
  rejected : List (Nat × Nat)

namespace Book

/-- Puts a spell under its identifier. -/
def add (s : Spell) (book : Book) : Book := Entries.put s.id s book

/-- The first spell with a given name. -/
def named? (name : Text) (book : Book) : Option Spell :=
  book.values.find? fun s => s.name = name

/-- The spell that a key means: the identifier first, then the name. -/
def lookUp? (key : Text) (book : Book) : Option Spell :=
  match Entries.find? key book with
  | some s => some s
  | none => named? key book

/-- The spells sorted by name. -/
def byName (book : Book) : List Spell :=
  book.values.mergeSort fun s t => Text.le s.name t.name

/-- The written form of a book, unless a spell has no wire form or a number has too many digits. -/
def text (book : Book) : Except Failure Text :=
  match book.values.mapM Spell.wire? with
  | .error failure => .error failure
  | .ok wires =>
    if (Json.arr wires).isWritable then .ok (Json.pretty (.arr wires))
    else .error (.unread (.tooManyDigits none))

/-- Reads an element of an array into what has been read before. -/
def Reading.step (reading : Reading) (position : Nat) (item : Json) : Reading :=
  match Spell.check item with
  | .valid s => { reading with book := add s reading.book }
  | .invalid _ rest =>
    { reading with rejected := reading.rejected ++ [(position, rest.length + 1)] }

/-- Reads the elements of an array from a position on into what has been read before. -/
def readItems (reading : Reading) (position : Nat) : List Json → Reading
  | [] => reading
  | item :: items => readItems (Reading.step reading position item) (position + 1) items

/-- Reads the elements of an array. -/
def ofItems (items : List Json) : Reading := readItems ⟨[], []⟩ 0 items

theorem readItems_append (reading : Reading) (position : Nat) (items items' : List Json) :
    readItems reading position (items ++ items')
      = readItems (readItems reading position items) (position + items.length) items' := by
  induction items generalizing reading position with
  | nil => rfl
  | cons item items ih => simp [readItems, ih, Nat.add_comm, Nat.add_left_comm]

theorem ofItems_append (items : List Json) (item : Json) :
    ofItems (items ++ [item]) = Reading.step (ofItems items) items.length item := by
  simp [ofItems, readItems_append, readItems]

theorem perm_byName (book : Book) : (byName book).Perm book.values := List.mergeSort_perm _ _

end Book

end Grimoire
