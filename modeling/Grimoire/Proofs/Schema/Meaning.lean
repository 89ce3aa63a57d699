import Grimoire.Proofs.Entries
import Grimoire.Schema.Draft7

/-!
# What schemas mean

A value meets a schema if it meets each of its keywords (`Schema.Meets`). The keywords are those for
kinds, choices, lengths, patterns and members; what only describes is met by everything, and any
other keyword by nothing, so a value that meets a schema keeps to all of it. Patterns are made of
anchors and sets, and are looked for at every place of a text (`Pattern.Finds`).
-/

namespace Grimoire

/-! ## Patterns -/

namespace Pattern

/-- A piece of a pattern: the start or the end of the text, or code points of a set, which is given
by what stands between its brackets. -/
inductive Piece where
  | start
  | finish
  | one (inside : Text)
  | oneOrMore (inside : Text)
  deriving DecidableEq

/-- The pieces of a pattern, or of one that goes on within the brackets of a set. -/
def pieces? : Option Text → Text → Option (List Piece)
  | none, [] => some []
  | none, .scalar '^' :: t => (pieces? none t).map (.start :: ·)
  | none, .scalar '$' :: t => (pieces? none t).map (.finish :: ·)
  | none, .scalar '[' :: t => pieces? (some []) t
  | none, _ :: _ => none
  | some inside, .scalar ']' :: .scalar '+' :: t => (pieces? none t).map (.oneOrMore inside :: ·)
  | some inside, .scalar ']' :: t => (pieces? none t).map (.one inside :: ·)
  | some inside, c :: t =>
    if c ∈ ("^[\\" : Text) then none else pieces? (some (inside ++ [c])) t
  | some _, [] => none

/-- The ranges of a set. A hyphen that does not stand between two code points stands for itself. -/
def ranges : Text → List (CodePoint × CodePoint)
  | first :: .scalar '-' :: last :: t => (first, last) :: ranges t
  | c :: t => (c, c) :: ranges t
  | [] => []

/-- Whether a code point is in a set. -/
def InSet (inside : Text) (c : CodePoint) : Prop :=
  ∃ range ∈ ranges inside, range.1.val ≤ c.val ∧ c.val ≤ range.2.val

/-- Whether pieces are found where some of a text has been read and some is left. -/
inductive Accepts : List Piece → Text → Text → Prop
  | nil {read rest : Text} : Accepts [] read rest
  | start {pieces : List Piece} {rest : Text} :
      Accepts pieces [] rest → Accepts (.start :: pieces) [] rest
  | finish {pieces : List Piece} {read : Text} :
      Accepts pieces read [] → Accepts (.finish :: pieces) read []
  | one {inside read rest : Text} {pieces : List Piece} {c : CodePoint} : InSet inside c →
      Accepts pieces (read ++ [c]) rest → Accepts (.one inside :: pieces) read (c :: rest)
  | last {inside read rest : Text} {pieces : List Piece} {c : CodePoint} : InSet inside c →
      Accepts pieces (read ++ [c]) rest → Accepts (.oneOrMore inside :: pieces) read (c :: rest)
  | more {inside read rest : Text} {pieces : List Piece} {c : CodePoint} : InSet inside c →
      Accepts (.oneOrMore inside :: pieces) (read ++ [c]) rest →
      Accepts (.oneOrMore inside :: pieces) read (c :: rest)

/-- Whether a pattern is found anywhere in a text. -/
def Finds (pattern t : Text) : Prop :=
  ∃ pieces read rest, pieces? none pattern = some pieces ∧ t = read ++ rest ∧
    Accepts pieces read rest

theorem accepts_oneOrMore_iff {inside : Text} (read rest : Text) :
    Accepts [.oneOrMore inside, .finish] read rest ↔ rest ≠ [] ∧ ∀ c ∈ rest, InSet inside c := by
  constructor
  · intro accepts
    induction rest generalizing read with
    | nil => cases accepts
    | cons c rest ih =>
      refine ⟨List.cons_ne_nil c rest, List.forall_mem_cons.mpr ?_⟩
      cases accepts with
      | last first end_ =>
        cases end_
        exact ⟨first, List.forall_mem_nil _⟩
      | more first others => exact ⟨first, (ih _ others).2⟩
  · rintro ⟨some, each⟩
    induction rest generalizing read with
    | nil => exact absurd rfl some
    | cons c rest ih =>
      rw [List.forall_mem_cons] at each
      cases rest with
      | nil => exact .last each.1 (.finish .nil)
      | cons d rest => exact .more each.1 (ih _ (List.cons_ne_nil d rest) each.2)

/-- A set between both anchors is found in the texts of its code points, but for the empty one. -/
theorem finds_iff {pattern inside t : Text}
    (pieces : pieces? none pattern = some [.start, .oneOrMore inside, .finish]) :
    Finds pattern t ↔ t ≠ [] ∧ ∀ c ∈ t, InSet inside c := by
  rw [← accepts_oneOrMore_iff [] t]
  constructor
  · rintro ⟨_, read, rest, is, rfl, accepts⟩
    obtain rfl := Option.some.inj (pieces.symm.trans is)
    cases accepts with
    | start accepts => exact accepts
  · intro accepts
    exact ⟨_, [], t, pieces, rfl, .start accepts⟩

end Pattern

/-! ## Schemas -/

namespace Schema

/-- The kinds of a value. -/
inductive HasKind : Text → Json → Prop
  | null : HasKind "null" .null
  | boolean (b : Bool) : HasKind "boolean" (.bool b)
  | integer {v : Json} : isInteger v = true → HasKind "integer" v
  | number {v : Json} : isNumber v = true → HasKind "number" v
  | string (t : Text) : HasKind "string" (.str t)
  | array (items : List Json) : HasKind "array" (.arr items)
  | object (members : Members) : HasKind "object" (.obj members)

/-- The keywords that only describe. -/
def annotations : List Text := ["$schema", "title", "description"]

mutual

/-- Whether a value meets a schema. -/
inductive Meets : Json → Json → Prop
  | anything (v : Json) : Meets (.bool true) v
  | object {keywords : Members} {v : Json} :
      (∀ e ∈ keywords, MeetsKeyword e.1 e.2 v) → Meets (.obj keywords) v

/-- Whether a value meets a keyword of a schema, which has a value of its own. A keyword that is for
texts or for objects is met by all other values. -/
inductive MeetsKeyword : Text → Json → Json → Prop
  | describes {key : Text} {w v : Json} : key ∈ annotations → MeetsKeyword key w v
  | type {kind : Text} {v : Json} : HasKind kind v → MeetsKeyword "type" (.str kind) v
  | enum {choices : List Json} {v : Json} : v ∈ choices → MeetsKeyword "enum" (.arr choices) v
  | minLength {least : Int} {v : Json} :
      (∀ t, v = .str t → least ≤ t.length) → MeetsKeyword "minLength" (.int least) v
  | maxLength {greatest : Int} {v : Json} :
      (∀ t, v = .str t → t.length ≤ greatest) → MeetsKeyword "maxLength" (.int greatest) v
  | pattern {source : Text} {v : Json} :
      (∀ t, v = .str t → Pattern.Finds source t) → MeetsKeyword "pattern" (.str source) v
  | required {names : List Text} {v : Json} :
      (∀ members, v = .obj members → ∀ name ∈ names, name ∈ Entries.keys members) →
      MeetsKeyword "required" (.arr (names.map .str)) v
  | properties {fields : Members} {v : Json} :
      (∀ members, v = .obj members → ∀ e ∈ fields, ∀ w, Entries.find? e.1 members = some w →
        Meets e.2 w) → MeetsKeyword "properties" (.obj fields) v

end

/-- Whether a value meets all of some keywords. -/
def MeetsAll (keywords : Members) (v : Json) : Prop := ∀ e ∈ keywords, MeetsKeyword e.1 e.2 v

theorem meets_object_iff {keywords : Members} {v : Json} :
    Meets (.obj keywords) v ↔ MeetsAll keywords v := by
  refine ⟨fun meets => ?_, .object⟩
  cases meets with
  | object each => exact each

theorem meetsAll_nil (v : Json) : MeetsAll [] v := List.forall_mem_nil _

theorem meetsAll_append {first rest : Members} {v : Json} :
    MeetsAll (first ++ rest) v ↔ MeetsAll first v ∧ MeetsAll rest v :=
  List.forall_mem_append

theorem meetsAll_singleton {key : Text} {w v : Json} :
    MeetsAll [(key, w)] v ↔ MeetsKeyword key w v :=
  List.forall_mem_singleton

theorem hasKind_string_iff {v : Json} : HasKind "string" v ↔ ∃ t, v = .str t := by
  constructor
  · intro kind
    generalize is : Text.ofString "string" = name at kind
    cases kind with
    | string t => exact ⟨t, rfl⟩
    | _ => exact absurd is (by decide)
  · rintro ⟨t, rfl⟩
    exact .string t

theorem hasKind_object_iff {v : Json} : HasKind "object" v ↔ ∃ members, v = .obj members := by
  constructor
  · intro kind
    generalize is : Text.ofString "object" = name at kind
    cases kind with
    | object members => exact ⟨members, rfl⟩
    | _ => exact absurd is (by decide)
  · rintro ⟨members, rfl⟩
    exact .object members

section

variable {v : Json}

theorem meetsKeyword_type_iff {kind : Text} :
    MeetsKeyword "type" (.str kind) v ↔ HasKind kind v := by
  refine ⟨fun meets => ?_, .type⟩
  generalize is : Text.ofString "type" = key at meets
  cases meets with
  | type kind => exact kind
  | describes known => exact absurd (is ▸ known) (by decide)
  | pattern => exact absurd is (by decide)

theorem meetsKeyword_pattern_iff {source : Text} :
    MeetsKeyword "pattern" (.str source) v ↔ ∀ t, v = .str t → Pattern.Finds source t := by
  refine ⟨fun meets => ?_, .pattern⟩
  generalize is : Text.ofString "pattern" = key at meets
  cases meets with
  | pattern finds => exact finds
  | describes known => exact absurd (is ▸ known) (by decide)
  | type => exact absurd is (by decide)

theorem meetsKeyword_minLength_iff {least : Int} :
    MeetsKeyword "minLength" (.int least) v ↔ ∀ t, v = .str t → least ≤ t.length := by
  refine ⟨fun meets => ?_, .minLength⟩
  generalize is : Text.ofString "minLength" = key at meets
  cases meets with
  | minLength long => exact long
  | describes known => exact absurd (is ▸ known) (by decide)
  | maxLength => exact absurd is (by decide)

theorem meetsKeyword_maxLength_iff {greatest : Int} :
    MeetsKeyword "maxLength" (.int greatest) v ↔ ∀ t, v = .str t → t.length ≤ greatest := by
  refine ⟨fun meets => ?_, .maxLength⟩
  generalize is : Text.ofString "maxLength" = key at meets
  cases meets with
  | maxLength short => exact short
  | describes known => exact absurd (is ▸ known) (by decide)
  | minLength => exact absurd is (by decide)

theorem meetsKeyword_enum_iff {choices : List Json} :
    MeetsKeyword "enum" (.arr choices) v ↔ v ∈ choices := by
  refine ⟨fun meets => ?_, .enum⟩
  generalize is : Text.ofString "enum" = key at meets
  cases meets with
  | enum chosen => exact chosen
  | describes known => exact absurd (is ▸ known) (by decide)
  | required => exact absurd is (by decide)

theorem meetsKeyword_required_iff {names : List Text} :
    MeetsKeyword "required" (.arr (names.map .str)) v
      ↔ ∀ members, v = .obj members → ∀ name ∈ names, name ∈ Entries.keys members := by
  refine ⟨fun meets => ?_, .required⟩
  generalize is : Text.ofString "required" = key at meets
  generalize listed : Json.arr (names.map .str) = w at meets
  cases meets with
  | required present =>
    rw [Json.arr.injEq, List.map_inj_right fun _ _ => Json.str.inj] at listed
    exact listed ▸ present
  | describes known => exact absurd (is ▸ known) (by decide)
  | enum => exact absurd is (by decide)
  | _ => exact absurd listed (by simp)

theorem meetsKeyword_properties_iff {fields : Members} :
    MeetsKeyword "properties" (.obj fields) v ↔ ∀ members, v = .obj members → ∀ e ∈ fields, ∀ w,
      Entries.find? e.1 members = some w → Meets e.2 w := by
  refine ⟨fun meets => ?_, .properties⟩
  generalize is : Text.ofString "properties" = key at meets
  cases meets with
  | properties each => exact each
  | describes known => exact absurd (is ▸ known) (by decide)

end

end Schema

end Grimoire
