import Grimoire.Proofs.Literal

/-!
# Calls in generated programs

A program is read line by line: a quote starts a literal, which goes on to the next quote that is
not escaped (`Script.literalsOf`). A literal with `interpolate(` right in front of it is the
argument of a call that fills placeholders in (`Script.calls`). An expression is such a call exactly
where its template has a placeholder (`Script.calls_expression`). Values have no round bracket
outside of their texts (`Script.isData_value`), so there are no calls in them
(`Script.IsData.calls_eq_nil`). A margin makes no difference (`Script.calls_indent`).
-/

namespace Grimoire.Script

open Json

/-! ## Literals of a line -/

mutual

/-- The literals of a line, each with the code between the literal before and itself; `code` has
been read already. -/
def literalsOf (code : Text) : Text → List (Text × Text)
  | [] => []
  | c :: t =>
    if c = .scalar '"' then literalsWithin code [c] false t else literalsOf (code ++ [c]) t

/-- The literals of a line from within a literal, of which `done` has been read, and maybe a
backslash that escapes what comes next. A literal that is not closed counts as none. -/
def literalsWithin (code done : Text) (escaped : Bool) : Text → List (Text × Text)
  | [] => []
  | c :: t =>
    if c = .scalar '"' ∧ escaped = false then (code, done ++ [c]) :: literalsOf [] t
    else literalsWithin code (done ++ [c]) (decide (c = .scalar '\\') && !escaped) t

end

/-- What stands in front of the argument of a call that fills placeholders in. -/
def callFront : Text := "interpolate("

/-- The arguments of the calls in a line that fill placeholders in. -/
def lineCalls (line : Text) : List Text :=
  ((literalsOf [] line).filter fun found => callFront.isSuffixOf found.1).map Prod.snd

/-- The arguments of the calls in a program that fill placeholders in, in order. -/
def calls (t : Text) : List Text := t.lines.flatMap lineCalls

theorem literalsOf_append {front : Text} (plain : .scalar '"' ∉ front) (code t : Text) :
    literalsOf code (front ++ t) = literalsOf (code ++ front) t := by
  induction front generalizing code with
  | nil => simp
  | cons c front ih =>
    rw [List.mem_cons, not_or] at plain
    rw [List.cons_append, literalsOf, if_neg (Ne.symm plain.1), ih plain.2, List.append_assoc,
      List.singleton_append]

theorem literalsWithin_append {inside : Text} (isInside : IsInside inside) (code done t : Text) :
    literalsWithin code done false (inside ++ .scalar '"' :: t)
      = (code, done ++ inside ++ [.scalar '"']) :: literalsOf [] t := by
  induction isInside generalizing done with
  | nil => rw [List.nil_append, literalsWithin, if_pos ⟨rfl, rfl⟩, List.append_nil]
  | single quote backslash _ _ ih =>
    rw [List.cons_append, literalsWithin, if_neg (by simp [quote])]
    simp [backslash, ih]
  | escape _ _ ih =>
    rw [List.cons_append, List.cons_append, literalsWithin, if_neg (by decide), literalsWithin,
      if_neg (by simp)]
    simp [ih]

/-- A literal is found as a whole, whatever its text is. -/
theorem literalsOf_literal (code u t : Text) :
    literalsOf code (literal u ++ t) = (code, literal u) :: literalsOf [] t := by
  obtain ⟨inside, shape, isInside⟩ := isLiteral_literal u
  rw [shape, List.cons_append, literalsOf, if_pos rfl, List.append_assoc, List.singleton_append,
    literalsWithin_append isInside]
  rfl

theorem literalsOf_plain {t : Text} (plain : .scalar '"' ∉ t) (code : Text) :
    literalsOf code t = [] := by
  have whole := literalsOf_append plain code []
  rwa [List.append_nil, literalsOf] at whole

/-! ## Code around literals -/

mutual

/-- Code at the end of a line makes no difference. -/
theorem literalsOf_append_plain {back : Text} (plain : .scalar '"' ∉ back) (code t : Text) :
    literalsOf code (t ++ back) = literalsOf code t := by
  cases t with
  | nil => rw [List.nil_append, literalsOf, literalsOf_plain plain]
  | cons c t =>
    rw [List.cons_append, literalsOf, literalsOf, literalsOf_append_plain plain,
      literalsWithin_append_plain plain]

theorem literalsWithin_append_plain {back : Text} (plain : .scalar '"' ∉ back) (code done : Text)
    (escaped : Bool) (t : Text) :
    literalsWithin code done escaped (t ++ back) = literalsWithin code done escaped t := by
  cases t with
  | nil =>
    rw [List.nil_append, literalsWithin]
    induction back generalizing done escaped with
    | nil => rw [literalsWithin]
    | cons c back ih =>
      rw [List.mem_cons, not_or] at plain
      rw [literalsWithin, if_neg (fun quote => plain.1 quote.1.symm)]
      exact ih plain.2 _ _
  | cons c t =>
    rw [List.cons_append, literalsWithin, literalsWithin, literalsOf_append_plain plain,
      literalsWithin_append_plain plain]

end

/-- The code in front of the first literal of a line, if there is one, with a text in front. -/
def addCode (front : Text) : List (Text × Text) → List (Text × Text)
  | [] => []
  | (code, l) :: rest => (front ++ code, l) :: rest

mutual

theorem literalsOf_addCode (front code t : Text) :
    literalsOf (front ++ code) t = addCode front (literalsOf code t) := by
  cases t with
  | nil => rw [literalsOf, literalsOf, addCode]
  | cons c t =>
    rw [literalsOf, literalsOf, List.append_assoc, literalsOf_addCode front (code ++ [c]),
      literalsWithin_addCode front code]
    split <;> rfl

theorem literalsWithin_addCode (front code done : Text) (escaped : Bool) (t : Text) :
    literalsWithin (front ++ code) done escaped t
      = addCode front (literalsWithin code done escaped t) := by
  cases t with
  | nil => rw [literalsWithin, literalsWithin, addCode]
  | cons c t =>
    rw [literalsWithin, literalsWithin, literalsWithin_addCode front code]
    split <;> rfl

end

/-- A margin of code points that are not in the front of a call does not make the end of one. -/
theorem isSuffixOf_margin {margin code : Text} (foreign : ∀ c ∈ margin, c ∉ callFront) :
    callFront.isSuffixOf (margin ++ code) = callFront.isSuffixOf code := by
  rw [Bool.eq_iff_iff, List.isSuffixOf_iff_suffix, List.isSuffixOf_iff_suffix]
  refine ⟨fun suffix => ?_, fun suffix => suffix.trans (List.suffix_append margin code)⟩
  have whole := List.suffix_append margin code
  rcases List.suffix_or_suffix_of_suffix suffix whole with inside | outside
  · exact inside
  · obtain ⟨front, split⟩ := outside
    rw [← split, List.suffix_append_self_iff] at suffix
    cases front with
    | nil => exact ⟨[], by simpa using split.symm⟩
    | cons c front =>
      have shared : c ∈ callFront := split ▸ List.mem_cons_self
      exact absurd shared (foreign c (suffix.subset List.mem_cons_self))

theorem lineCalls_margin {margin : Text} (plain : .scalar '"' ∉ margin)
    (foreign : ∀ c ∈ margin, c ∉ callFront) (line : Text) :
    lineCalls (margin ++ line) = lineCalls line := by
  have found := literalsOf_addCode margin [] line
  rw [List.append_nil] at found
  rw [lineCalls, lineCalls, literalsOf_append plain, List.nil_append, found]
  cases literalsOf [] line with
  | nil => rfl
  | cons e rest =>
    rw [addCode, List.filter_cons, List.filter_cons, isSuffixOf_margin foreign]
    split <;> rfl

/-! ## Calls of a program -/

theorem lineCalls_plain {line : Text} (plain : .scalar '"' ∉ line) : lineCalls line = [] := by
  rw [lineCalls, literalsOf_plain plain]
  rfl

theorem calls_plain {t : Text} (plain : .scalar '"' ∉ t) : calls t = [] := by
  rw [calls, List.flatMap_eq_nil_iff]
  intro line member
  exact lineCalls_plain fun quote => plain (Text.subset_of_mem_splitOn line member _ quote)

theorem calls_line {t : Text} (flat : .scalar '\n' ∉ t) : calls t = lineCalls t := by
  rw [calls, Text.lines, Text.splitOn_plain flat, List.flatMap_singleton]

theorem calls_append_line (t u : Text) :
    calls (t ++ .scalar '\n' :: u) = calls t ++ calls u := by
  rw [calls, Text.lines, Text.splitOn_append_cons, List.flatMap_append]
  rfl

/-- Code at the end of a text makes no difference. -/
theorem calls_append_plain {back : Text} (plain : .scalar '"' ∉ back) (flat : .scalar '\n' ∉ back)
    (t : Text) : calls (t ++ back) = calls t := by
  obtain ⟨pieces, piece, cut, cut'⟩ := Text.splitOn_append_plain flat t
  rw [calls, calls, Text.lines, Text.lines, cut, cut', List.flatMap_append, List.flatMap_append,
    List.flatMap_singleton, List.flatMap_singleton, lineCalls, lineCalls,
    literalsOf_append_plain plain]

/-- The calls in texts that are joined are those in the texts. -/
theorem calls_join (sep : Text) (plain : .scalar '"' ∉ sep) (flat : .scalar '\n' ∉ sep)
    (ts : List Text) : calls (Text.join (sep ++ [.scalar '\n']) ts) = ts.flatMap calls := by
  cases ts with
  | nil => exact calls_plain (by simp [Text.join])
  | cons t ts =>
    induction ts generalizing t with
    | nil => simp [Text.join]
    | cons u ts ih =>
      rw [Text.join_cons_cons, List.flatMap_cons, ← ih u, List.append_assoc, List.singleton_append,
        ← List.append_assoc, calls_append_line, calls_append_plain plain flat]

/-- A margin makes no difference. -/
theorem calls_indent {margin : Text} (plain : .scalar '"' ∉ margin) (flat : .scalar '\n' ∉ margin)
    (foreign : ∀ c ∈ margin, c ∉ callFront) (t : Text) :
    calls (Text.indent margin t) = calls t := by
  rw [calls, calls, Text.lines_indent flat, List.flatMap_map]
  refine List.flatMap_congr fun line _ => ?_
  split
  · rfl
  · exact lineCalls_margin plain foreign line

/-- An expression is a call where its template has a placeholder, and a literal elsewhere. -/
theorem expression_eq (t : Text) : expression t = if Template.hasPlaceholder t then
    callFront ++ literal t ++ ", input)" else literal t := by
  rw [expression, Template.any_segments]
  rfl

theorem notMem_lineFeed_expression (t : Text) : .scalar '\n' ∉ expression t := by
  have flat := (isLiteral_literal t).notMem_lineFeed
  rw [expression_eq]
  split
  · rw [List.mem_append, List.mem_append, not_or, not_or]
    exact ⟨⟨by decide, flat⟩, by decide⟩
  · exact flat

/-- The literals of a line that ends with an expression. -/
theorem literalsOf_expression (code t : Text) : literalsOf code (expression t) =
    [(if Template.hasPlaceholder t then code ++ callFront else code, literal t)] := by
  rw [expression_eq]
  split
  · rw [List.append_assoc, literalsOf_append (by decide), literalsOf_literal,
      literalsOf_plain (by decide)]
  · have whole := literalsOf_literal code t []
    rwa [List.append_nil, literalsOf] at whole

/-- The literal of an expression is the argument of a call exactly where its template has a
placeholder. -/
theorem lineCalls_expression {code : Text} (other : callFront.isSuffixOf code = false) (t : Text) :
    ((literalsOf code (expression t)).filter fun found => callFront.isSuffixOf found.1).map Prod.snd
      = if Template.hasPlaceholder t then [literal t] else [] := by
  rw [literalsOf_expression]
  split
  · have suffix : callFront.isSuffixOf (code ++ callFront) = true :=
      List.isSuffixOf_iff_suffix.mpr (List.suffix_append code callFront)
    simp [suffix]
  · simp [other]

/-- Whether a text is code on one line that does not end in the front of a call. -/
def IsFrame (t : Text) : Prop :=
  .scalar '"' ∉ t ∧ .scalar '\n' ∉ t ∧ callFront.isSuffixOf t = false

instance (t : Text) : Decidable (IsFrame t) := inferInstanceAs (Decidable (_ ∧ _ ∧ _))

/-- The literal of an expression is the argument of a call exactly where its template has a
placeholder, whatever stands around the expression. -/
theorem calls_expression {front back : Text} (before : IsFrame front) (behind : IsFrame back)
    (t : Text) : calls (front ++ expression t ++ back)
      = if Template.hasPlaceholder t then [literal t] else [] := by
  obtain ⟨plain, flat, other⟩ := before
  obtain ⟨plain', flat', -⟩ := behind
  have line : .scalar '\n' ∉ front ++ expression t := by
    rw [List.mem_append, not_or]
    exact ⟨flat, notMem_lineFeed_expression t⟩
  rw [calls_append_plain plain' flat', calls_line line, lineCalls, literalsOf_append plain,
    List.nil_append, lineCalls_expression other t]

theorem calls_literal {front back : Text} (before : IsFrame front) (behind : IsFrame back)
    (t : Text) : calls (front ++ literal t ++ back) = [] := by
  obtain ⟨plain, flat, other⟩ := before
  obtain ⟨plain', flat', -⟩ := behind
  have line : .scalar '\n' ∉ front ++ literal t := by
    rw [List.mem_append, not_or]
    exact ⟨flat, (isLiteral_literal t).notMem_lineFeed⟩
  have found := literalsOf_literal front t []
  rw [List.append_nil, literalsOf] at found
  rw [calls_append_plain plain' flat', calls_line line, lineCalls, literalsOf_append plain,
    List.nil_append, found]
  simp [other]

/-! ## Data -/

/-- Whether a text has no bracket that could open a call: code points other than quotes and round
brackets, around literals. -/
inductive IsData : Text → Prop
  | nil : IsData []
  | code {c : CodePoint} {t : Text} : c ≠ .scalar '"' → c ≠ .scalar '(' → IsData t → IsData (c :: t)
  | literal {t : Text} (u : Text) : IsData t → IsData (Script.literal u ++ t)

namespace IsData

theorem append {t u : Text} (first : IsData t) (rest : IsData u) : IsData (t ++ u) := by
  induction first with
  | nil => exact rest
  | code quote bracket _ ih => exact .code quote bracket ih
  | literal v _ ih =>
    rw [List.append_assoc]
    exact .literal v ih

theorem of_forall {t : Text} (each : ∀ c ∈ t, c ≠ .scalar '"' ∧ c ≠ .scalar '(') : IsData t := by
  induction t with
  | nil => exact .nil
  | cons c t ih =>
    rw [List.forall_mem_cons] at each
    exact .code each.1.1 each.1.2 (ih each.2)

theorem lines {t : Text} (data : IsData t) : ∀ line ∈ t.lines, IsData line := by
  induction data with
  | nil => exact List.forall_mem_singleton.mpr .nil
  | @code c t quote bracket _ ih =>
    by_cases same : c = .scalar '\n'
    · rw [same, Text.lines, Text.splitOn_cons_self, List.forall_mem_cons]
      exact ⟨.nil, ih⟩
    · obtain ⟨piece, pieces, cut, cut'⟩ := Text.splitOn_cons same t
      rw [Text.lines, cut, List.forall_mem_cons] at ih
      rw [Text.lines, cut', List.forall_mem_cons]
      exact ⟨.code quote bracket ih.1, ih.2⟩
  | @literal t u _ ih =>
    have flat := (isLiteral_literal u).notMem_lineFeed
    obtain ⟨piece, pieces, cut, cut'⟩ := Text.splitOn_append_of_notMem flat t
    rw [Text.lines, cut, List.forall_mem_cons] at ih
    rw [Text.lines, cut', List.forall_mem_cons]
    exact ⟨.literal u ih.1, ih.2⟩

/-- A round bracket of data is inside quotes. -/
theorem quote_mem {t : Text} (data : IsData t) (bracket : .scalar '(' ∈ t) : .scalar '"' ∈ t := by
  induction data with
  | nil => exact absurd bracket List.not_mem_nil
  | code _ other _ ih =>
    rcases List.mem_cons.mp bracket with same | inside
    · exact absurd same.symm other
    · exact .tail _ (ih inside)
  | literal u _ _ =>
    obtain ⟨inside, shape, -⟩ := isLiteral_literal u
    rw [shape]
    exact List.mem_cons_self

/-- No code in front of a literal of data has a round bracket in it. -/
theorem bracket_notMem {t : Text} (data : IsData t) {code : Text} (plain : .scalar '(' ∉ code) :
    ∀ found ∈ literalsOf code t, .scalar '(' ∉ found.1 := by
  induction data generalizing code with
  | nil => simp [literalsOf]
  | @code c t quote bracket _ ih =>
    rw [literalsOf, if_neg quote]
    refine ih ?_
    rw [List.mem_append, List.mem_singleton, not_or]
    exact ⟨plain, Ne.symm bracket⟩
  | literal u _ ih =>
    rw [literalsOf_literal, List.forall_mem_cons]
    exact ⟨plain, ih List.not_mem_nil⟩

theorem calls_eq_nil {t : Text} (data : IsData t) : calls t = [] := by
  rw [calls, List.flatMap_eq_nil_iff]
  intro line member
  rw [lineCalls, List.map_eq_nil_iff, List.filter_eq_nil_iff]
  intro found within suffix
  rw [List.isSuffixOf_iff_suffix] at suffix
  exact (data.lines line member).bracket_notMem List.not_mem_nil found within
    (suffix.subset (by decide))

end IsData

/-! ## Values -/

theorem isData_literal (t : Text) : IsData (literal t) := by
  rw [← List.append_nil (literal t)]
  exact .literal t .nil

/-- The texts of a value are literals, and there are no round brackets around them. -/
theorem isData_print (level : Nat) (v : Json) : IsData (print (separated .indented) level v) := by
  have composes : (separated .indented).Composes IsData := by
    refine isReadable_separated.composes IsData.append
      (fun t bare => IsData.of_forall fun c member => ?_) fun t => ?_
    · constructor <;> rintro rfl <;> exact absurd (bare _ member) (by decide)
    · rw [← literal_eq]
      exact isData_literal t
  exact composes.print level v

theorem isData_value (ms : Members) : IsData (value (.obj ms)) := by
  rw [value_obj]
  exact isData_print 0 (.obj ms)

end Grimoire.Script
