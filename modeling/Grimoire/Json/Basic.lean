import Grimoire.Entries
import Grimoire.Number.Decimal

/-!
# JSON values

Objects keep the order of their members, integers are unbounded and stay apart from floating-point
numbers, and texts may hold surrogates that stand alone.

Main statement: `Json.beq_iff` (the comparison decides equality).
-/

namespace Grimoire

/-- A JSON value. -/
inductive Json where
  | null
  | bool (value : Bool)
  | int (value : Int)
  | float (value : Binary64)
  | str (value : Text)
  | arr (items : List Json)
  | obj (members : List (Text × Json))
  deriving Inhabited

/-- The members of an object, in order. -/
abbrev Members := Entries Json

namespace Json

/-- A text value from a string. -/
def ofString (s : String) : Json := str s

mutual

/-- Whether two values are the same. -/
def beq : Json → Json → Bool
  | null, null => true
  | bool a, bool b => a = b
  | int a, int b => a = b
  | float a, float b => a = b
  | str a, str b => a = b
  | arr a, arr b => beqItems a b
  | obj a, obj b => beqMembers a b
  | _, _ => false

/-- Whether two lists of values are the same. -/
def beqItems : List Json → List Json → Bool
  | [], [] => true
  | a :: as, b :: bs => beq a b && beqItems as bs
  | _, _ => false

/-- Whether two lists of members are the same. -/
def beqMembers : List (Text × Json) → List (Text × Json) → Bool
  | [], [] => true
  | (k, a) :: as, (l, b) :: bs => k = l && beq a b && beqMembers as bs
  | _, _ => false

end

mutual

theorem beq_iff (a b : Json) : beq a b = true ↔ a = b := by
  cases a <;> cases b <;> simp [beq]
  · exact beqItems_iff _ _
  · exact beqMembers_iff _ _

theorem beqItems_iff (as bs : List Json) : beqItems as bs = true ↔ as = bs := by
  cases as with
  | nil => cases bs <;> simp [beqItems]
  | cons a as =>
    cases bs with
    | nil => simp [beqItems]
    | cons b bs => simp [beqItems, beq_iff a b, beqItems_iff as bs]

theorem beqMembers_iff (as bs : List (Text × Json)) : beqMembers as bs = true ↔ as = bs := by
  cases as with
  | nil => cases bs <;> simp [beqMembers]
  | cons a as =>
    cases bs with
    | nil => simp [beqMembers]
    | cons b bs =>
      obtain ⟨k, a⟩ := a
      obtain ⟨l, b⟩ := b
      simp [beqMembers, beq_iff a b, beqMembers_iff as bs]

end

instance : DecidableEq Json := fun a b => decidable_of_iff (beq a b = true) (beq_iff a b)

/-- The members of an object. -/
def members? : Json → Option Members
  | obj members => some members
  | _ => none

/-- The items of an array. -/
def items? : Json → Option (List Json)
  | arr items => some items
  | _ => none

/-- The text of a text value. -/
def text? : Json → Option Text
  | str value => some value
  | _ => none

mutual

/-- The number of levels of a value: a value that holds nothing is one level. -/
def levels : Json → Nat
  | arr items => levelsItems items + 1
  | obj members => levelsMembers members + 1
  | _ => 1

/-- The greatest number of levels among items, zero if there are none. -/
def levelsItems : List Json → Nat
  | [] => 0
  | v :: rest => max (levels v) (levelsItems rest)

/-- The greatest number of levels among members, zero if there are none. -/
def levelsMembers : List (Text × Json) → Nat
  | [] => 0
  | (_, v) :: rest => max (levels v) (levelsMembers rest)

end

mutual

/-- The values in a value that hold no others, in order. -/
def leaves : Json → List Json
  | arr items => leavesItems items
  | obj members => leavesMembers members
  | v => [v]

/-- The values in items that hold no others, in order. -/
def leavesItems : List Json → List Json
  | [] => []
  | v :: rest => leaves v ++ leavesItems rest

/-- The values in members that hold no others, in order. -/
def leavesMembers : List (Text × Json) → List Json
  | [] => []
  | (_, v) :: rest => leaves v ++ leavesMembers rest

end

mutual

/-- The names of the members in a value, in order. -/
def names : Json → List Text
  | arr items => namesItems items
  | obj members => namesMembers members
  | _ => []

/-- The names of the members in items, in order. -/
def namesItems : List Json → List Text
  | [] => []
  | v :: rest => names v ++ namesItems rest

/-- The names of members and of the members in them, in order. -/
def namesMembers : List (Text × Json) → List Text
  | [] => []
  | (k, v) :: rest => k :: (names v ++ namesMembers rest)

end

/-- The greatest count of digits of an integer that is read or written. -/
def digitLimit : Nat := 4300

/-- Whether a value is no integer with too many digits. -/
def hasFewDigits : Json → Bool
  | int n => (Nat.toDigits 10 n.natAbs).length ≤ digitLimit
  | _ => true

/-- Whether no integer in a value has too many digits to be written. -/
def isWritable (v : Json) : Bool := v.leaves.all hasFewDigits

mutual

/-- The value with null in the place of every number that is not finite. -/
def finite : Json → Json
  | float x => if x.isFinite then float x else null
  | arr items => arr (finiteItems items)
  | obj members => obj (finiteMembers members)
  | v => v

/-- Items with null in the place of every number that is not finite. -/
def finiteItems : List Json → List Json
  | [] => []
  | v :: rest => finite v :: finiteItems rest

/-- Members with null in the place of every number that is not finite. -/
def finiteMembers : List (Text × Json) → List (Text × Json)
  | [] => []
  | (k, v) :: rest => (k, finite v) :: finiteMembers rest

end

end Json

end Grimoire
