import Grimoire.Proofs.Json.Numeral

/-!
# Printed text

What a printed value starts with (`Json.head_print`), and what holds of all of it
(`Json.Layout.Composes.print`), among that which code points occur in it
(`Json.forall_mem_print`). What all values are printed with apart, they are those of the texts in
the value (`Json.forall_mem_print_iff`).
-/

namespace Grimoire.Json

/-! ## The parts of printed containers -/

theorem print_arr_nil (l : Layout) (level : Nat) :
    print l level (arr []) = [.scalar '[', .scalar ']'] := by simp [print, Text.ofString]

theorem print_arr_cons (l : Layout) (level : Nat) (v : Json) (vs : List Json) :
    print l level (arr (v :: vs)) = .scalar '[' :: (l.edge (level + 1)
      ++ (print l (level + 1) v ++ printItems l level vs)) := by
  simp [print, Text.ofString]

theorem printItems_nil (l : Layout) (level : Nat) :
    printItems l level [] = l.edge level ++ [.scalar ']'] := by simp [printItems, Text.ofString]

theorem printItems_cons (l : Layout) (level : Nat) (v : Json) (vs : List Json) :
    printItems l level (v :: vs) = .scalar ',' :: (l.gap (level + 1)
      ++ (print l (level + 1) v ++ printItems l level vs)) := by
  simp [printItems, Text.ofString]

theorem print_obj_nil (l : Layout) (level : Nat) :
    print l level (obj []) = [.scalar '\x7b', .scalar '\x7d'] := by simp [print, Text.ofString]

theorem print_obj_cons (l : Layout) (level : Nat) (k : Text) (v : Json) (ms : Members) :
    print l level (obj ((k, v) :: ms)) = .scalar '\x7b' :: (l.edge (level + 1)
      ++ (quote l.escape k ++ (.scalar ':' :: .scalar ' ' ::
        (print l (level + 1) v ++ printMembers l level ms)))) := by
  simp [print, Text.ofString]

theorem printMembers_nil (l : Layout) (level : Nat) :
    printMembers l level [] = l.edge level ++ [.scalar '\x7d'] := by
  simp [printMembers, Text.ofString]

theorem printMembers_cons (l : Layout) (level : Nat) (k : Text) (v : Json) (ms : Members) :
    printMembers l level ((k, v) :: ms) = .scalar ',' :: (l.gap (level + 1)
      ++ (quote l.escape k ++ (.scalar ':' :: .scalar ' ' ::
        (print l (level + 1) v ++ printMembers l level ms)))) := by
  simp [printMembers, Text.ofString]

/-! ## The first code point -/

/-- Whether a value can start with a code point. -/
def startsValue (c : CodePoint) : Bool :=
  isAtomic c || c = .scalar '"' || c = .scalar '[' || c = .scalar '\x7b'

theorem isAtomic_of_head {t : Text} (atomic : ∀ c ∈ t, isAtomic c = true) (nonempty : t ≠ []) :
    ∃ c s, t = c :: s ∧ isAtomic c = true := by
  obtain ⟨c, s, rfl⟩ := List.exists_cons_of_ne_nil nonempty
  exact ⟨c, s, rfl, atomic c (by simp)⟩

/-- What is printed is not empty, and tells by its first code point that it is a value. -/
theorem head_print (l : Layout) (level : Nat) (v : Json) :
    ∃ c t, print l level v = c :: t ∧ startsValue c = true := by
  cases v with
  | null => exact ⟨_, _, rfl, by decide⟩
  | bool b => cases b <;> exact ⟨_, _, rfl, by decide⟩
  | int n =>
    obtain ⟨c, t, text, atomic⟩ := isAtomic_of_head (isAtomic_ofInt n) (ofInt_ne_nil n)
    exact ⟨c, t, by rw [print, text], by simp [startsValue, atomic]⟩
  | float x =>
    obtain ⟨c, t, text, atomic⟩ := isAtomic_of_head (isAtomic_floatText x) (floatText_ne_nil x)
    exact ⟨c, t, by rw [print, text], by simp [startsValue, atomic]⟩
  | str t => exact ⟨_, _, by rw [print, quote], by decide⟩
  | arr items =>
    cases items with
    | nil => exact ⟨_, _, print_arr_nil l level, by decide⟩
    | cons v vs => exact ⟨_, _, print_arr_cons l level v vs, by decide⟩
  | obj members =>
    cases members with
    | nil => exact ⟨_, _, print_obj_nil l level, by decide⟩
    | cons m ms => exact ⟨_, _, print_obj_cons l level m.1 m.2 ms, by decide⟩

theorem isClosed_cons {c : CodePoint} {rest : Text} (h : isAtomic c = false) :
    IsClosed (c :: rest) := by
  simpa [IsClosed] using h

/-! ## Properties of the whole -/

/-- Whether a property of texts holds of what values are made of under a layout, and of two texts one
behind the other if it holds of each. -/
structure Layout.Composes (l : Layout) (P : Text → Prop) : Prop where
  append : ∀ {t u : Text}, P t → P u → P (t ++ u)
  atomic : ∀ t : Text, (∀ c ∈ t, isAtomic c = true) → P t
  mark : ∀ c ∈ ("[]\x7b\x7d,: " : Text), P [c]
  quoted : ∀ t : Text, P (quote l.escape t)
  edge : ∀ level, P (l.edge level)
  gap : ∀ level, P (l.gap level)

namespace Layout.Composes

variable {l : Layout} {P : Text → Prop} (composes : l.Composes P)

include composes

theorem cons {c : CodePoint} (mark : c ∈ ("[]\x7b\x7d,: " : Text)) {t : Text} (rest : P t) :
    P (c :: t) :=
  composes.append (composes.mark c mark) rest

/-- A name with what follows its colon. -/
theorem named (k : Text) {t : Text} (rest : P t) :
    P (quote l.escape k ++ (.scalar ':' :: .scalar ' ' :: t)) :=
  composes.append (composes.quoted k)
    (composes.cons (by decide) (composes.cons (by decide) rest))

mutual

/-- Such a property holds of every printed value. -/
theorem print (level : Nat) (v : Json) : P (print l level v) := by
  cases v with
  | null =>
    rw [Json.print]
    exact composes.atomic _ (by decide)
  | bool b =>
    rw [Json.print]
    exact composes.atomic _ (by cases b <;> decide)
  | int n =>
    rw [Json.print]
    exact composes.atomic _ (isAtomic_ofInt n)
  | float x =>
    rw [Json.print]
    exact composes.atomic _ (isAtomic_floatText x)
  | str t =>
    rw [Json.print]
    exact composes.quoted t
  | arr vs =>
    cases vs with
    | nil =>
      rw [print_arr_nil]
      exact composes.cons (by decide) (composes.mark _ (by decide))
    | cons v vs =>
      rw [print_arr_cons]
      exact composes.cons (by decide) (composes.append (composes.edge _)
        (composes.append (print (level + 1) v) (printItems level vs)))
  | obj ms =>
    cases ms with
    | nil =>
      rw [print_obj_nil]
      exact composes.cons (by decide) (composes.mark _ (by decide))
    | cons m ms =>
      rw [print_obj_cons]
      exact composes.cons (by decide) (composes.append (composes.edge _) (composes.named m.1
        (composes.append (print (level + 1) m.2) (printMembers level ms))))

theorem printItems (level : Nat) (vs : List Json) : P (printItems l level vs) := by
  cases vs with
  | nil =>
    rw [printItems_nil]
    exact composes.append (composes.edge level) (composes.mark _ (by decide))
  | cons v vs =>
    rw [printItems_cons]
    exact composes.cons (by decide) (composes.append (composes.gap _)
      (composes.append (print (level + 1) v) (printItems level vs)))

theorem printMembers (level : Nat) (ms : Members) : P (printMembers l level ms) := by
  cases ms with
  | nil =>
    rw [printMembers_nil]
    exact composes.append (composes.edge level) (composes.mark _ (by decide))
  | cons m ms =>
    rw [printMembers_cons]
    exact composes.cons (by decide) (composes.append (composes.gap _) (composes.named m.1
      (composes.append (print (level + 1) m.2) (printMembers level ms))))

end

end Layout.Composes

/-! ## All code points -/

/-- Whether numerals, marks, escapes and what a layout puts between the parts have a property. -/
structure Layout.Within (l : Layout) (p : CodePoint → Prop) : Prop where
  atomic : ∀ c, isAtomic c = true → p c
  marks : ∀ c ∈ ("[]\x7b\x7d\",: " : Text), p c
  escaped : ∀ c, ∀ d ∈ l.escape c, p d
  edge : ∀ level, ∀ c ∈ l.edge level, p c
  gap : ∀ level, ∀ c ∈ l.gap level, p c

section

variable {p : CodePoint → Prop} {l : Layout} (within : l.Within p)

include within

theorem forall_mem_quote (t : Text) : ∀ c ∈ quote l.escape t, p c := by
  have mark : p (.scalar '"') := within.marks _ (by decide)
  refine List.forall_mem_cons.mpr ⟨mark, List.forall_mem_append.mpr ⟨?_, by simpa using mark⟩⟩
  intro c member
  obtain ⟨d, -, member⟩ := List.mem_flatMap.mp member
  exact within.escaped d c member

/-- What holds of all that a value is printed with holds of all printed code points. -/
theorem forall_mem_print (level : Nat) (v : Json) : ∀ c ∈ print l level v, p c := by
  have composes : l.Composes fun t => ∀ c ∈ t, p c := by
    refine ⟨fun first rest => List.forall_mem_append.mpr ⟨first, rest⟩,
      fun t atomic c member => within.atomic c (atomic c member),
      fun c member => List.forall_mem_singleton.mpr (within.marks c ?_),
      forall_mem_quote within, within.edge, within.gap⟩
    revert c
    decide
  exact composes.print level v

end

/-! ## The texts in a value -/

mutual

/-- The texts in a value, keys among them, in order. -/
def texts : Json → List Text
  | str t => [t]
  | arr items => textsItems items
  | obj members => textsMembers members
  | null | bool _ | int _ | float _ => []

/-- The texts in items, in order. -/
def textsItems : List Json → List Text
  | [] => []
  | v :: rest => texts v ++ textsItems rest

/-- The keys of members and the texts in them, in order. -/
def textsMembers : List (Text × Json) → List Text
  | [] => []
  | (k, v) :: rest => k :: (texts v ++ textsMembers rest)

end

theorem forall_mem_textsItems {q : Text → Prop} {vs : List Json} :
    (∀ t ∈ textsItems vs, q t) ↔ ∀ v ∈ vs, ∀ t ∈ v.texts, q t := by
  induction vs with
  | nil => simp [textsItems]
  | cons v vs ih => rw [textsItems, List.forall_mem_append, ih, List.forall_mem_cons]

theorem forall_mem_textsMembers {q : Text → Prop} {ms : Members} :
    (∀ t ∈ textsMembers ms, q t) ↔ ∀ m ∈ ms, q m.1 ∧ ∀ t ∈ m.2.texts, q t := by
  induction ms with
  | nil => simp [textsMembers]
  | cons m ms ih =>
    rw [textsMembers, List.forall_mem_cons, List.forall_mem_append, ih, List.forall_mem_cons,
      and_assoc]

/-- Whether numerals, marks and what a layout puts between the parts have a property, and an escape
has it exactly when the code point has. -/
structure Layout.Shows (l : Layout) (p : CodePoint → Prop) : Prop where
  atomic : ∀ c, isAtomic c = true → p c
  marks : ∀ c ∈ ("[]\x7b\x7d\",: " : Text), p c
  escaped : ∀ c, (∀ d ∈ l.escape c, p d) ↔ p c
  edge : ∀ level, ∀ c ∈ l.edge level, p c
  gap : ∀ level, ∀ c ∈ l.gap level, p c

section

variable {p : CodePoint → Prop} {l : Layout} (shown : l.Shows p)

include shown

theorem forall_mem_quote_iff (t : Text) : (∀ c ∈ quote l.escape t, p c) ↔ ∀ c ∈ t, p c := by
  have mark : p (.scalar '"') := shown.marks _ (by decide)
  rw [quote, List.forall_mem_cons, List.forall_mem_append, List.forall_mem_singleton]
  constructor
  · exact fun all c member => (shown.escaped c).mp fun d escaped =>
      all.2.1 d (List.mem_flatMap.mpr ⟨c, member, escaped⟩)
  · refine fun all => ⟨mark, fun d member => ?_, mark⟩
    obtain ⟨c, inside, escaped⟩ := List.mem_flatMap.mp member
    exact (shown.escaped c).mpr (all c inside) d escaped

theorem forall_mem_atomic_iff {s : Text} (atomic : ∀ c ∈ s, isAtomic c = true) :
    (∀ c ∈ s, p c) ↔ ∀ t ∈ ([] : List Text), ∀ c ∈ t, p c :=
  iff_of_true (fun c member => shown.atomic c (atomic c member)) (by simp)

mutual

/-- What holds of all that every value is printed with holds of all printed code points if it does
of those of the texts in the value. -/
theorem forall_mem_print_iff (level : Nat) (v : Json) :
    (∀ c ∈ print l level v, p c) ↔ ∀ t ∈ v.texts, ∀ c ∈ t, p c := by
  cases v with
  | null =>
    rw [print, texts]
    exact forall_mem_atomic_iff shown (by decide)
  | bool b =>
    rw [print, texts]
    exact forall_mem_atomic_iff shown (by cases b <;> decide)
  | int n =>
    rw [print, texts]
    exact forall_mem_atomic_iff shown (isAtomic_ofInt n)
  | float x =>
    rw [print, texts]
    exact forall_mem_atomic_iff shown (isAtomic_floatText x)
  | str t => rw [print, texts, forall_mem_quote_iff shown, List.forall_mem_singleton]
  | arr items =>
    cases items with
    | nil =>
      rw [print_arr_nil, texts, textsItems]
      exact iff_of_true (fun c member => shown.marks c (by revert c; decide)) (by simp)
    | cons v vs =>
      rw [print_arr_cons, List.forall_mem_cons, List.forall_mem_append, List.forall_mem_append,
        forall_mem_print_iff (level + 1) v, forall_mem_printItems_iff level vs, texts, textsItems,
        List.forall_mem_append]
      exact ⟨fun all => all.2.2, fun all => ⟨shown.marks _ (by decide), shown.edge _, all⟩⟩
  | obj members =>
    cases members with
    | nil =>
      rw [print_obj_nil, texts, textsMembers]
      exact iff_of_true (fun c member => shown.marks c (by revert c; decide)) (by simp)
    | cons m ms =>
      rw [print_obj_cons, List.forall_mem_cons, List.forall_mem_append, List.forall_mem_append,
        List.forall_mem_cons, List.forall_mem_cons, List.forall_mem_append,
        forall_mem_quote_iff shown, forall_mem_print_iff (level + 1) m.2,
        forall_mem_printMembers_iff level ms, texts, textsMembers, List.forall_mem_cons,
        List.forall_mem_append]
      exact ⟨fun all => ⟨all.2.2.1, all.2.2.2.2.2⟩, fun all => ⟨shown.marks _ (by decide),
        shown.edge _, all.1, shown.marks _ (by decide), shown.marks _ (by decide), all.2⟩⟩

theorem forall_mem_printItems_iff (level : Nat) (vs : List Json) :
    (∀ c ∈ printItems l level vs, p c) ↔ ∀ t ∈ textsItems vs, ∀ c ∈ t, p c := by
  cases vs with
  | nil =>
    rw [printItems_nil, List.forall_mem_append]
    exact iff_of_true ⟨shown.edge _, fun c member => shown.marks c (by revert c; decide)⟩
      (by simp [textsItems])
  | cons v vs =>
    rw [printItems_cons, List.forall_mem_cons, List.forall_mem_append, List.forall_mem_append,
      forall_mem_print_iff (level + 1) v, forall_mem_printItems_iff level vs, textsItems,
      List.forall_mem_append]
    exact ⟨fun all => all.2.2, fun all => ⟨shown.marks _ (by decide), shown.gap _, all⟩⟩

theorem forall_mem_printMembers_iff (level : Nat) (ms : Members) :
    (∀ c ∈ printMembers l level ms, p c) ↔ ∀ t ∈ textsMembers ms, ∀ c ∈ t, p c := by
  cases ms with
  | nil =>
    rw [printMembers_nil, List.forall_mem_append]
    exact iff_of_true ⟨shown.edge _, fun c member => shown.marks c (by revert c; decide)⟩
      (by simp [textsMembers])
  | cons m ms =>
    rw [printMembers_cons, List.forall_mem_cons, List.forall_mem_append, List.forall_mem_append,
      List.forall_mem_cons, List.forall_mem_cons, List.forall_mem_append,
      forall_mem_quote_iff shown, forall_mem_print_iff (level + 1) m.2,
      forall_mem_printMembers_iff level ms, textsMembers, List.forall_mem_cons,
      List.forall_mem_append]
    exact ⟨fun all => ⟨all.2.2.1, all.2.2.2.2.2⟩, fun all => ⟨shown.marks _ (by decide),
      shown.gap _, all.1, shown.marks _ (by decide), shown.marks _ (by decide), all.2⟩⟩

end

end

end Grimoire.Json
