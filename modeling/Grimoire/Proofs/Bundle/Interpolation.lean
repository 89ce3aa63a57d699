import Grimoire.Proofs.Bundle.Outline
import Grimoire.Proofs.Calls

/-!
# The function that fills placeholders in

Whether an action fills placeholders in is decided in one place, and each of its templates is
written in another one. The program has the function that fills placeholders in exactly if it calls
it, and it calls it for those templates that have placeholders, in the order in which they are sent
(`Program.interpolation_defined_iff_called`).
-/

namespace Grimoire

/-- The templates that an action sends. -/
def Action.sentTemplates : Action → List Text
  | .http r => r.sentTemplates
  | .script _ => []

theorem Action.interpolates_eq_true_iff (a : Action) :
    a.interpolates = true ↔ ∃ t ∈ a.sentTemplates, Template.hasPlaceholder t = true := by
  cases a with
  | http r =>
    rw [interpolates, HttpRequest.interpolates_eq, List.any_map, List.any_eq_true]
    rfl
  | script code => simp [interpolates, sentTemplates]

namespace Script

/-- Whether an expression is a call that fills placeholders in. -/
def IsCall (e : Text) : Prop := ∃ t, e = callFront ++ literal t ++ ", input)"

theorem isCall_expression_iff (t : Text) :
    IsCall (expression t) ↔ Template.hasPlaceholder t = true := by
  rw [expression_eq]
  split
  · rename_i found
    exact ⟨fun _ => found, fun _ => ⟨t, rfl⟩⟩
  · rename_i missing
    refine ⟨fun ⟨u, same⟩ => ?_, fun found => absurd found missing⟩
    rw [← List.append_nil (literal t)] at same
    exact absurd same literal_ne_call

/-- The literals of the templates with placeholders. -/
def filledIn (ts : List Text) : List Text := (ts.filter Template.hasPlaceholder).map literal

theorem filledIn_append (ts us : List Text) :
    filledIn (ts ++ us) = filledIn ts ++ filledIn us := by
  rw [filledIn, List.filter_append, List.map_append, filledIn, filledIn]

theorem filledIn_singleton (t : Text) :
    filledIn [t] = if Template.hasPlaceholder t then [literal t] else [] := by
  rw [filledIn, List.filter_singleton]
  cases Template.hasPlaceholder t <;> rfl

theorem filledIn_ne_nil_iff (ts : List Text) :
    filledIn ts ≠ [] ↔ ∃ t ∈ ts, Template.hasPlaceholder t = true := by
  rw [filledIn, Ne, List.map_eq_nil_iff, List.filter_eq_nil_iff]
  push Not
  rfl

end Script

namespace Program

open Script

/-! ## Sections without calls -/

/-- The first line of the function that fills placeholders in. -/
def definitionHead : Text := "function interpolate(template, vars) \x7b"

/-- Whether a text neither calls the function that fills placeholders in nor defines it. -/
def IsQuiet (t : Text) : Prop := calls t = [] ∧ definitionHead ∉ t.lines

instance (t : Text) : Decidable (IsQuiet t) := inferInstanceAs (Decidable (_ ∧ _))

/-- Data has no round bracket on a line without a quote. -/
theorem isQuiet_of_isData {t : Text} (data : IsData t) : IsQuiet t := by
  refine ⟨data.calls_eq_nil, fun member => ?_⟩
  have quote : .scalar '"' ∈ definitionHead := (data.lines _ member).quote_mem (by decide)
  exact absurd quote (by decide)

/-- The lines of the head that are the same in all programs. -/
def preparation : List String := ["", "// JSON Schema validation using Ajv",
  "const ajv = new Ajv(\x7b allErrors: true, coerceTypes: true \x7d);",
  "const validateInput = ajv.compile(inputSchema);"]

/-- The fixed sections of a program, without the function itself. -/
def fixedSections : List (List String) := [imports, preparation,
  ["const validateOutput = ajv.compile(outputSchema);"],
  ["", "// Runtime limits, configurable via environment variables"], readBodyFunction,
  formatErrorsFunction, callHead, outputCheck, noOutputCheck, callTail,
  ["async function executeAction(input) \x7b"], requestHead, requestMiddle, requestTail, scriptHead,
  scriptTail, ["\x7d", ""], transport]

theorem isQuiet_cons {l : List Char} {ls : List String}
    (letters : (l.all fun c => c != '"' && c != '\n') = true)
    (other : String.ofList l ≠ "function interpolate(template, vars) \x7b")
    (rest : ∀ t ∈ fixed ls, IsQuiet t) : ∀ t ∈ fixed (String.ofList l :: ls), IsQuiet t := by
  have plain : ∀ c ∈ l, c ≠ '"' ∧ c ≠ '\n' := by
    simpa only [List.all_eq_true, Bool.and_eq_true, bne_iff_ne] using letters
  have absent : ∀ c, (∀ d ∈ l, d ≠ c) → .scalar c ∉ Text.ofString (String.ofList l) := by
    intro c absent member
    rw [Text.ofString, String.toList_ofList, List.mem_map] at member
    obtain ⟨d, member, same⟩ := member
    exact absent d member (CodePoint.scalar.inj same)
  rw [fixed, List.map_cons, List.forall_mem_cons]
  refine ⟨⟨calls_plain (absent _ fun d member => (plain d member).1), ?_⟩, rest⟩
  rw [Text.lines, Text.splitOn_plain (absent _ fun d member => (plain d member).2),
    List.mem_singleton]
  intro same
  rw [definitionHead, Text.ofString, Text.ofString,
    List.map_inj_right fun _ _ => CodePoint.scalar.inj, String.toList_inj] at same
  exact other same.symm

theorem isQuiet_fixed {ls : List String} (member : ls ∈ fixedSections) :
    ∀ t ∈ fixed ls, IsQuiet t := by
  have each : ∀ t ∈ fixed fixedSections.flatten, IsQuiet t := by
    -- Line by line, with the letters of a line by unification, so that none has to be decoded.
    repeat refine isQuiet_cons (by decide) (by decide) ?_
    exact List.forall_mem_nil _
  intro t within
  rw [fixed, List.mem_map] at within
  obtain ⟨l, within, rfl⟩ := within
  exact each _ (List.mem_map_of_mem (List.mem_flatten_of_mem member within))

/-- The lines with texts that are the same in all programs. -/
theorem isQuiet_closed : ∀ t ∈ announcement ++ settingLines (.http ⟨[], .get, none, none⟩)
    ++ settingLines (.script []), IsQuiet t := by
  decide +kernel

theorem isQuiet_announcement : ∀ t ∈ announcement, IsQuiet t := by
  intro t member
  exact isQuiet_closed t (by simp [member])

theorem isQuiet_settingLines (a : Action) : ∀ t ∈ settingLines a, IsQuiet t := by
  intro t member
  cases a with
  | http r =>
    have member : t ∈ settingLines (.http ⟨[], .get, none, none⟩) := member
    exact isQuiet_closed t (by simp [member])
  | script code =>
    have member : t ∈ settingLines (.script []) := member
    exact isQuiet_closed t (by simp [member])

/-- What stands around the data in the head. -/
theorem isData_headFrame : ∀ t ∈ [("const TOOL_NAME = " : Text), "const TOOL_DESCRIPTION = ",
    "const inputSchema = ", "const outputSchema = ", ";"],
    ∀ c ∈ t, c ≠ .scalar '"' ∧ c ≠ .scalar '(' := by
  decide +kernel

theorem isQuiet_headLine {front t : Text} (first : ∀ c ∈ front, c ≠ .scalar '"' ∧ c ≠ .scalar '(')
    (data : IsData t) : IsQuiet (front ++ t ++ ";") :=
  isQuiet_of_isData (((IsData.of_forall first).append data).append
    (.of_forall (isData_headFrame _ (by simp))))

/-- Names, descriptions and schemas are data. -/
theorem isQuiet_headLines (s : Spell) : ∀ t ∈ headLines s, IsQuiet t := by
  have name : IsQuiet ("const TOOL_NAME = " ++ literal s.name ++ ";") :=
    isQuiet_headLine (isData_headFrame _ (by simp)) (isData_literal s.name)
  have description : IsQuiet ("const TOOL_DESCRIPTION = " ++ literal s.description ++ ";") :=
    isQuiet_headLine (isData_headFrame _ (by simp)) (isData_literal s.description)
  have input : IsQuiet ("const inputSchema = " ++ value (.obj s.inputSchema) ++ ";") :=
    isQuiet_headLine (isData_headFrame _ (by simp)) (isData_value s.inputSchema)
  have output : IsQuiet ("const outputSchema = " ++ value (.obj s.outputSchema) ++ ";") :=
    isQuiet_headLine (isData_headFrame _ (by simp)) (isData_value s.outputSchema)
  have others : ∀ t ∈ fixed preparation, IsQuiet t := isQuiet_fixed (by simp [fixedSections])
  simp only [fixed, preparation, List.map_cons, List.map_nil, List.forall_mem_cons] at others
  obtain ⟨blank, comment, ajv, compile, -⟩ := others
  simp only [headLines, List.forall_mem_cons]
  exact ⟨blank, name, description, blank, comment, ajv, input, output, compile,
    List.forall_mem_nil _⟩

/-- The other helpers of an action follow the function that fills placeholders in. -/
theorem helperLines_split (a : Action) : ∃ others,
    helperLines a = (if a.interpolates then interpolateFunction else []) ++ others ∧
      ∀ t ∈ fixed others, IsQuiet t := by
  cases a with
  | http r =>
    refine ⟨readBodyFunction ++ formatErrorsFunction, List.append_assoc _ _ _, ?_⟩
    rw [fixed, List.map_append, List.forall_mem_append]
    exact ⟨isQuiet_fixed (by simp [fixedSections]), isQuiet_fixed (by simp [fixedSections])⟩
  | script code => exact ⟨formatErrorsFunction, rfl, isQuiet_fixed (by simp [fixedSections])⟩

/-- The program is quiet around the function that fills placeholders in and around the action. -/
theorem lines_split (s : Spell) : ∃ before between after,
    lines s = before ++ (fixed (if s.action.interpolates then interpolateFunction else [])
      ++ (between ++ (actionLines s.action ++ after))) ∧
    (∀ t ∈ before, IsQuiet t) ∧ (∀ t ∈ between, IsQuiet t) ∧ ∀ t ∈ after, IsQuiet t := by
  have output : ∀ t ∈ fixed (outputLines s), IsQuiet t := by
    rw [outputLines]
    split
    · exact isQuiet_fixed (by simp [fixedSections])
    · exact List.forall_mem_nil _
  have check : ∀ t ∈ fixed (if s.checksOutput then outputCheck else noOutputCheck), IsQuiet t := by
    split
    · exact isQuiet_fixed (by simp [fixedSections])
    · exact isQuiet_fixed (by simp [fixedSections])
  obtain ⟨others, helpers, quiet⟩ := helperLines_split s.action
  refine ⟨fixed imports ++ headLines s ++ fixed (outputLines s)
    ++ fixed ["", "// Runtime limits, configurable via environment variables"]
    ++ settingLines s.action,
    fixed others ++ announcement ++ fixed callHead
    ++ fixed (if s.checksOutput then outputCheck else noOutputCheck) ++ fixed callTail
    ++ fixed ["async function executeAction(input) \x7b"],
    fixed ["\x7d", ""] ++ fixed transport, ?_, ?_, ?_, ?_⟩
  · simp only [lines, helpers, fixed, List.map_append, List.append_assoc]
  · simp only [List.forall_mem_append]
    exact ⟨⟨⟨⟨isQuiet_fixed (by simp [fixedSections]), isQuiet_headLines s⟩, output⟩,
      isQuiet_fixed (by simp [fixedSections])⟩, isQuiet_settingLines s.action⟩
  · simp only [List.forall_mem_append]
    exact ⟨⟨⟨⟨⟨quiet, isQuiet_announcement⟩, isQuiet_fixed (by simp [fixedSections])⟩, check⟩,
      isQuiet_fixed (by simp [fixedSections])⟩, isQuiet_fixed (by simp [fixedSections])⟩
  · rw [List.forall_mem_append]
    exact ⟨isQuiet_fixed (by simp [fixedSections]), isQuiet_fixed (by simp [fixedSections])⟩

/-! ## The action -/

theorem calls_quiet {ts : List Text} (quiet : ∀ t ∈ ts, IsQuiet t) : ts.flatMap calls = [] :=
  List.flatMap_eq_nil_iff.mpr fun t member => (quiet t member).1

theorem head_notMem_quiet {ts : List Text} (quiet : ∀ t ∈ ts, IsQuiet t) :
    definitionHead ∉ ts.flatMap Text.lines := by
  rw [List.mem_flatMap]
  rintro ⟨t, member, inside⟩
  exact (quiet t member).2 inside

theorem calls_fixed {ls : List String} (member : ls ∈ fixedSections) :
    (fixed ls).flatMap calls = [] :=
  calls_quiet (isQuiet_fixed member)

theorem head_notMem_fixed {ls : List String} (member : ls ∈ fixedSections) :
    definitionHead ∉ (fixed ls).flatMap Text.lines :=
  head_notMem_quiet (isQuiet_fixed member)

/-- The code around the literals of an action, each on one line. -/
theorem isFrame_code : ∀ t ∈ [("    const targetUrl = " : Text),
    "    fn = new AsyncFunction('input', ", "method: ", "body: ", ";", ");", []], IsFrame t := by
  decide +kernel

/-- The name of a header is a literal of its own, in front of the value. -/
theorem calls_headerLine (e : Text × Text) : calls (headerLine e) = filledIn [e.2] := by
  have flat : .scalar '\n' ∉ headerLine e := by
    rw [headerLine, List.mem_append, List.mem_append, List.mem_append, not_or, not_or, not_or]
    exact ⟨⟨⟨by decide, (isLiteral_literal e.1).notMem_lineFeed⟩, by decide⟩,
      notMem_lineFeed_expression e.2⟩
  have name : callFront.isSuffixOf ("  " : Text) = false := by decide
  have colon : callFront.isSuffixOf (": " : Text) = false := by decide
  have value := lineCalls_expression colon e.2
  rw [← filledIn_singleton] at value
  rw [calls_line flat, lineCalls, headerLine, List.append_assoc, List.append_assoc,
    literalsOf_append (by decide), literalsOf_literal, literalsOf_append (by decide),
    List.nil_append, List.filter_cons_of_neg (Bool.not_eq_true _ ▸ name), ← value]
  rfl

theorem calls_headerLines (es : Entries Text) :
    (es.map headerLine).flatMap calls = filledIn es.values := by
  induction es with
  | nil => rfl
  | cons e es ih =>
    rw [List.map_cons, List.flatMap_cons, ih, calls_headerLine, ← filledIn_append]
    rfl

theorem calls_headerOptions (es : Entries Text) :
    (headerOptions es).flatMap calls = filledIn es.values := by
  cases es with
  | nil => rfl
  | cons e es =>
    have front : calls "headers: \x7b" = [] := calls_plain (by decide)
    have back : calls "\x7d" = [] := calls_plain (by decide)
    have lines : calls (Text.join ",\n" ((e :: es).map headerLine))
        = ((e :: es).map headerLine).flatMap calls :=
      calls_join "," (by decide) (by decide) _
    have option : headerOptions (e :: es) = [("headers: \x7b" : Text) ++ .scalar '\n'
        :: (Text.join ",\n" ((e :: es).map headerLine) ++ .scalar '\n' :: ("\x7d" : Text))] :=
      congrArg (fun t : Text => [t])
        (List.append_assoc "headers: \x7b\n" (Text.join ",\n" ((e :: es).map headerLine)) "\n\x7d")
    rw [option, List.flatMap_singleton, calls_append_line, calls_append_line, front, back, lines,
      calls_headerLines, List.nil_append, List.append_nil]

theorem calls_bodyOptions (b : Option Text) :
    (bodyOptions b).flatMap calls = filledIn b.toList := by
  cases b with
  | none => rfl
  | some t =>
    have call : calls ("body: " ++ expression t ++ ([] : Text))
        = if Template.hasPlaceholder t then [literal t] else [] :=
      calls_expression (isFrame_code _ (by simp)) (isFrame_code _ (by simp)) t
    rw [List.append_nil, ← filledIn_singleton] at call
    rw [bodyOptions, List.flatMap_singleton, call, Option.toList_some]

theorem calls_requestOptions (r : HttpRequest) : (requestOptions r).flatMap calls
    = filledIn (r.headerEntries.values ++ r.sentBody.toList) := by
  have signal : calls "signal: controller.signal" = [] := calls_plain (by decide)
  have method : calls ("method: " ++ literal r.method.name) = [] := by
    have silent : calls ("method: " ++ literal r.method.name ++ ([] : Text)) = [] :=
      calls_literal (isFrame_code _ (by simp)) (isFrame_code _ (by simp)) r.method.name
    rwa [List.append_nil] at silent
  rw [requestOptions, List.flatMap_cons, List.flatMap_cons, signal, method, List.nil_append,
    List.nil_append, List.flatMap_append, calls_headerOptions, calls_bodyOptions, filledIn_append]

/-- An action calls the function for the templates that it sends and that have placeholders. -/
theorem calls_actionLines (a : Action) :
    (actionLines a).flatMap calls = filledIn a.sentTemplates := by
  cases a with
  | http r =>
    have url : calls ("    const targetUrl = " ++ expression r.url ++ ";") = filledIn [r.url] := by
      rw [filledIn_singleton]
      exact calls_expression (isFrame_code _ (by simp)) (isFrame_code _ (by simp)) r.url
    have options : calls (Text.indent "      " (Text.join ",\n" (requestOptions r)))
        = filledIn (r.headerEntries.values ++ r.sentBody.toList) := by
      rw [calls_indent (by decide) (by decide) (by decide), ← calls_requestOptions]
      exact calls_join "," (by decide) (by decide) (requestOptions r)
    have head : (fixed requestHead).flatMap calls = [] := calls_fixed (by simp [fixedSections])
    have middle : (fixed requestMiddle).flatMap calls = [] := calls_fixed (by simp [fixedSections])
    have tail : (fixed requestTail).flatMap calls = [] := calls_fixed (by simp [fixedSections])
    rw [actionLines, List.flatMap_append, List.flatMap_cons, List.flatMap_append,
      List.flatMap_cons, head, url, middle, options, tail, List.nil_append, List.nil_append,
      List.append_nil, ← filledIn_append]
    rfl
  | script code =>
    have run : calls ("    fn = new AsyncFunction('input', " ++ literal code ++ ");") = [] :=
      calls_literal (isFrame_code _ (by simp)) (isFrame_code _ (by simp)) code
    have head : (fixed scriptHead).flatMap calls = [] := calls_fixed (by simp [fixedSections])
    have tail : (fixed scriptTail).flatMap calls = [] := calls_fixed (by simp [fixedSections])
    rw [actionLines, List.flatMap_append, List.flatMap_cons, head, run, tail]
    rfl

/-- A line that starts with a blank does not start the function. -/
theorem head_ne_blank (t : Text) : definitionHead ≠ .scalar ' ' :: t := by
  intro same
  exact absurd (List.cons.inj same).1 (by decide)

theorem head_notMem_line (t : Text) (flat : .scalar '\n' ∉ t) :
    definitionHead ∉ Text.lines (.scalar ' ' :: t) := by
  have whole : .scalar '\n' ∉ .scalar ' ' :: t := by
    rw [List.mem_cons, not_or]
    exact ⟨by decide, flat⟩
  rw [Text.lines, Text.splitOn_plain whole, List.mem_singleton]
  exact head_ne_blank t

theorem head_notMem_indent (t : Text) :
    definitionHead ∉ (Text.indent "      " t).lines := by
  rw [Text.lines_indent (by decide), List.mem_map]
  rintro ⟨line, -, same⟩
  split at same
  · rename_i empty
    rw [List.isEmpty_iff.mp empty] at same
    exact absurd same (by decide)
  · exact head_ne_blank _ same.symm

/-- The lines of an action start with blanks. -/
theorem head_notMem_actionLines (a : Action) :
    definitionHead ∉ (actionLines a).flatMap Text.lines := by
  cases a with
  | http r =>
    have url : definitionHead
        ∉ Text.lines ("    const targetUrl = " ++ expression r.url ++ ";") := by
      refine head_notMem_line ("   const targetUrl = " ++ expression r.url ++ ";") ?_
      rw [List.mem_append, List.mem_append, not_or, not_or]
      exact ⟨⟨by decide, notMem_lineFeed_expression r.url⟩, by decide⟩
    rw [actionLines, List.flatMap_append, List.flatMap_cons, List.flatMap_append,
      List.flatMap_cons]
    simp only [List.mem_append, not_or]
    exact ⟨head_notMem_fixed (by simp [fixedSections]), url,
      head_notMem_fixed (by simp [fixedSections]), head_notMem_indent _,
      head_notMem_fixed (by simp [fixedSections])⟩
  | script code =>
    have run : definitionHead
        ∉ Text.lines ("    fn = new AsyncFunction('input', " ++ literal code ++ ");") := by
      refine head_notMem_line ("   fn = new AsyncFunction('input', " ++ literal code ++ ");") ?_
      rw [List.mem_append, List.mem_append, not_or, not_or]
      exact ⟨⟨by decide, (isLiteral_literal code).notMem_lineFeed⟩, by decide⟩
    rw [actionLines, List.flatMap_append, List.flatMap_cons]
    simp only [List.mem_append, not_or]
    exact ⟨head_notMem_fixed (by simp [fixedSections]), run,
      head_notMem_fixed (by simp [fixedSections])⟩

/-! ## The program -/

/-- The function does not call itself, and each of its lines is one. -/
theorem interpolateFunction_lines : (fixed interpolateFunction).flatMap calls = [] ∧
    (fixed interpolateFunction).flatMap Text.lines = fixed interpolateFunction := by
  decide +kernel

theorem calls_text (s : Spell) : calls (text s) = filledIn s.action.sentTemplates := by
  obtain ⟨before, between, after, split, quiet, quiet', quiet''⟩ := lines_split s
  have helper : (fixed (if s.action.interpolates then interpolateFunction else [])).flatMap calls
      = [] := by
    split
    · exact interpolateFunction_lines.1
    · rfl
  have sections : calls (text s) = (lines s).flatMap calls :=
    calls_join [] List.not_mem_nil List.not_mem_nil (lines s)
  rw [sections, split, List.flatMap_append, List.flatMap_append, List.flatMap_append,
    List.flatMap_append, helper, calls_actionLines, calls_quiet quiet,
    calls_quiet quiet', calls_quiet quiet'', List.nil_append, List.nil_append,
    List.nil_append, List.append_nil]

/-- Whether a program has the function that fills placeholders in. -/
def DefinesInterpolation (t : Text) : Prop := fixed interpolateFunction <:+: t.lines

theorem definesInterpolation_text_iff (s : Spell) :
    DefinesInterpolation (text s) ↔ s.action.interpolates = true := by
  obtain ⟨before, between, after, split, quiet, quiet', quiet''⟩ := lines_split s
  have whole : (text s).lines = (lines s).flatMap Text.lines := Text.lines_join _ _
  rw [split, List.flatMap_append, List.flatMap_append, List.flatMap_append, List.flatMap_append]
    at whole
  rw [DefinesInterpolation, whole]
  constructor
  · intro inside
    by_contra silent
    -- Without the function, its first line is nowhere.
    have head : definitionHead ∈ fixed interpolateFunction := List.mem_cons_self
    have member := inside.subset head
    rw [if_neg silent] at member
    simp only [List.mem_append] at member
    rcases member with member | member | member | member | member
    · exact head_notMem_quiet quiet member
    · exact List.not_mem_nil member
    · exact head_notMem_quiet quiet' member
    · exact head_notMem_actionLines s.action member
    · exact head_notMem_quiet quiet'' member
  · intro called
    rw [if_pos called, interpolateFunction_lines.2]
    exact ⟨_, _, (List.append_assoc _ _ _)⟩

theorem calls_script (s : Spell) (code : Text) :
    calls (text { s with action := .script code }) = [] := by
  rw [calls_text]
  rfl

/-- The program of a spell has the function that fills placeholders in exactly if its action fills
placeholders in, which is exactly if one of the templates that it sends is written as a call. The
calls in the program are those of the templates with placeholders, in the order in which they are
sent, and each template is wrapped in a call exactly if it has a placeholder itself. A script has
neither the function nor a call. -/
theorem interpolation_defined_iff_called (s : Spell) :
    (DefinesInterpolation (text s) ↔ ∃ t ∈ s.action.sentTemplates, IsCall (expression t)) ∧
    (s.action.interpolates = true ↔ ∃ t ∈ s.action.sentTemplates, IsCall (expression t)) ∧
    (DefinesInterpolation (text s) ↔ calls (text s) ≠ []) ∧
    calls (text s) = (s.action.sentTemplates.filter Template.hasPlaceholder).map literal ∧
    (∀ t, expression t = if Template.hasPlaceholder t then callFront ++ literal t ++ ", input)"
      else literal t) ∧
    (∀ code, ¬DefinesInterpolation (text { s with action := .script code }) ∧
      calls (text { s with action := .script code }) = []) := by
  have called : s.action.interpolates = true
      ↔ ∃ t ∈ s.action.sentTemplates, IsCall (expression t) := by
    simp only [isCall_expression_iff]
    exact s.action.interpolates_eq_true_iff
  have counted : DefinesInterpolation (text s) ↔ calls (text s) ≠ [] := by
    rw [definesInterpolation_text_iff, calls_text, filledIn_ne_nil_iff]
    exact s.action.interpolates_eq_true_iff
  refine ⟨(definesInterpolation_text_iff s).trans called, called, counted, calls_text s,
    expression_eq, fun code => ⟨?_, calls_script s code⟩⟩
  rw [definesInterpolation_text_iff]
  exact Bool.false_ne_true

end Program

end Grimoire
