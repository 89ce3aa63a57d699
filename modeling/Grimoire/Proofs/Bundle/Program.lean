import Grimoire.Bundle.Program
import Grimoire.Proofs.Template
import Grimoire.Proofs.Text.Lines

/-!
# What the program of a spell tells about the spell

Two spells have the same program exactly when they agree in all but their identifier, and in their
actions as far as a call depends on them (`Program.text_eq_text_iff`). The program is read from the
front: each literal, each schema and each option ends where it says itself, whatever stands in it,
so that the next fixed part starts at the same place in both programs.
-/

namespace Grimoire

namespace Action

/-- Two actions do the same: the same script, or the same request with the same headers in the same
order and the same body, if one is sent. -/
def Agrees : Action → Action → Prop
  | .http r, .http s => r.url = s.url ∧ r.method = s.method ∧ r.headerEntries = s.headerEntries ∧
      r.sentBody = s.sentBody
  | .script code, .script code' => code = code'
  | _, _ => False

theorem Agrees.interpolates {a b : Action} (agrees : a.Agrees b) :
    a.interpolates = b.interpolates := by
  cases a <;> cases b
  · obtain ⟨url, -, headers, body⟩ := agrees
    simp only [Action.interpolates, HttpRequest.interpolates, url, headers, body]
  · exact agrees.elim
  · exact agrees.elim
  · rfl

end Action

/-- Two spells agree in all that a program depends on. -/
structure Spell.Agrees (s t : Spell) : Prop where
  name : s.name = t.name
  description : s.description = t.description
  inputSchema : s.inputSchema = t.inputSchema
  outputSchema : s.outputSchema = t.outputSchema
  action : s.action.Agrees t.action

theorem Method.name_injective {m n : Method} (same : m.name = n.name) : m = n :=
  Option.some.inj ((ofName?_name m).symm.trans (same ▸ ofName?_name n))

namespace Program

open Script Json

/-! ## Lines -/

/-- Lines, each with its line feed. -/
def onLines (ls : List Text) : Text := ls.flatMap (· ++ ("\n" : Text))

theorem onLines_cons (l : Text) (ls : List Text) :
    onLines (l :: ls) = l ++ ("\n" ++ onLines ls) := by
  simp [onLines]

theorem onLines_append (ls ls' : List Text) : onLines (ls ++ ls') = onLines ls ++ onLines ls' :=
  List.flatMap_append

theorem join_onLines (ls : List Text) : Text.join "\n" (ls ++ [[]]) = onLines ls := by
  induction ls with
  | nil => rfl
  | cons l ls ih =>
    cases ls with
    | nil => simp [Text.join, onLines]
    | cons l' ls =>
      rw [List.cons_append, List.cons_append, Text.join_cons_cons, ← List.cons_append, ih,
        ← onLines_cons]

/-- The lines behind the action, without the empty one at the end. -/
def lastLines : List Text := (fixed ["\x7d", ""] ++ fixed transport).dropLast

/-- The program ends in a line feed. -/
theorem text_eq (s : Spell) : text s = onLines (fixed imports) ++ (onLines (headLines s)
    ++ (onLines (fixed (outputLines s))
    ++ (onLines (fixed ["", "// Runtime limits, configurable via environment variables"])
    ++ (onLines (settingLines s.action) ++ (onLines (fixed (helperLines s.action))
    ++ (onLines announcement ++ (onLines (fixed callHead)
    ++ (onLines (fixed (if s.checksOutput then outputCheck else noOutputCheck))
    ++ (onLines (fixed callTail) ++ (onLines (fixed ["async function executeAction(input) \x7b"])
    ++ (onLines (actionLines s.action) ++ onLines lastLines))))))))))) := by
  have ends : fixed ["\x7d", ""] ++ fixed transport = lastLines ++ [[]] := rfl
  rw [text, lines, List.append_assoc _ _ (fixed transport), ends, ← List.append_assoc, join_onLines]
  simp only [onLines_append, List.append_assoc]

/-! ## The head -/

theorem isClosed_semicolon (r : Text) : IsClosed ((";" : Text) ++ r) := isClosed_cons (by decide)

/-- Name, description and schemas end where they say. -/
theorem headLines_prefix {s t : Spell} {r r' : Text}
    (h : onLines (headLines s) ++ r = onLines (headLines t) ++ r') :
    s.name = t.name ∧ s.description = t.description ∧ s.inputSchema = t.inputSchema ∧
      s.outputSchema = t.outputSchema ∧ r = r' := by
  simp only [headLines, onLines_cons, List.append_assoc, List.append_cancel_left_eq] at h
  obtain ⟨name, h⟩ := literal_prefix h
  simp only [List.append_cancel_left_eq] at h
  obtain ⟨description, h⟩ := literal_prefix h
  simp only [List.append_cancel_left_eq] at h
  obtain ⟨input, h⟩ := value_prefix (isClosed_semicolon _) (isClosed_semicolon _) h
  simp only [List.append_cancel_left_eq] at h
  obtain ⟨output, h⟩ := value_prefix (isClosed_semicolon _) (isClosed_semicolon _) h
  simp only [List.append_cancel_left_eq] at h
  exact ⟨name, description, input, output, h⟩

/-! ## Settings and helpers -/

/-- The settings tell the kind of an action, because the variables have different names. -/
theorem settingLines_prefix {a b : Action} {r r' : Text}
    (h : onLines (settingLines a) ++ r = onLines (settingLines b) ++ r') :
    ((∃ q q', a = .http q ∧ b = .http q') ∨ ∃ code code', a = .script code ∧ b = .script code') ∧
      r = r' := by
  -- The first variables differ in their first letters, which stand behind the word const.
  have apart : ∀ {q : HttpRequest} {code r r' : Text},
      onLines (settingLines (.http q)) ++ r ≠ onLines (settingLines (.script code)) ++ r' := by
    intro q code r r' same
    have letter : some (CodePoint.scalar 'A') = some (.scalar 'S') := congrArg (·[6]?) same
    exact absurd letter (by decide)
  cases a with
  | http q =>
    cases b with
    | http q' => exact ⟨.inl ⟨q, q', rfl, rfl⟩, List.append_cancel_left h⟩
    | script code' => exact absurd h apart
  | script code =>
    cases b with
    | http q' => exact absurd h.symm apart
    | script code' => exact ⟨.inr ⟨code, code', rfl, rfl⟩, List.append_cancel_left h⟩

/-- Whether placeholders are filled in shows at the first function. -/
theorem helperLines_prefix {q q' : HttpRequest} {r r' : Text}
    (h : onLines (fixed (helperLines (.http q))) ++ r
      = onLines (fixed (helperLines (.http q'))) ++ r') : r = r' := by
  have apart : ∀ {r r' : Text},
      onLines (fixed (interpolateFunction ++ readBodyFunction ++ formatErrorsFunction)) ++ r
        ≠ onLines (fixed ([] ++ readBodyFunction ++ formatErrorsFunction)) ++ r' := by
    intro r r' same
    have letter : some (CodePoint.scalar 'f') = some (.scalar 'a') := congrArg (·[0]?) same
    exact absurd letter (by decide)
  simp only [helperLines] at h
  split at h <;> split at h
  · exact List.append_cancel_left h
  · exact absurd h apart
  · exact absurd h.symm apart
  · exact List.append_cancel_left h

/-! ## The options of a request -/

/-- What stands in front of each option but the first. -/
def laterOptions (options : List Text) : Text := options.flatMap ((",\n" : Text) ++ ·)

theorem laterOptions_cons (option : Text) (options : List Text) :
    laterOptions (option :: options) = ",\n" ++ (option ++ laterOptions options) := by
  simp [laterOptions]

/-- The line of a header. -/
def headerLine (entry : Text × Text) : Text :=
  "  " ++ literal entry.1 ++ ": " ++ expression entry.2

theorem headerLine_prefix {e e' : Text × Text} {r r' : Text}
    (h : headerLine e ++ r = headerLine e' ++ r') : e = e' ∧ r = r' := by
  simp only [headerLine, List.append_assoc, List.append_cancel_left_eq] at h
  obtain ⟨name, h⟩ := literal_prefix h
  simp only [List.append_cancel_left_eq] at h
  obtain ⟨value, h⟩ := expression_prefix h
  exact ⟨Prod.ext name value, h⟩

/-- The headers end at the line that holds their brace: behind each other line there is a comma. -/
theorem headerLines_prefix (es es' : Entries Text) {r r' : Text}
    (h : laterOptions (es.map headerLine) ++ ("\n\x7d" ++ r)
      = laterOptions (es'.map headerLine) ++ ("\n\x7d" ++ r')) : es = es' ∧ r = r' := by
  have apart : ∀ {t u : Text}, (",\n" : Text) ++ t ≠ "\n\x7d" ++ u := by
    intro t u same
    exact absurd (List.cons.inj same).1 (by decide)
  induction es generalizing es' with
  | nil =>
    cases es' with
    | nil => exact ⟨rfl, List.append_cancel_left h⟩
    | cons e' es' =>
      rw [List.map_cons, laterOptions_cons, List.append_assoc] at h
      exact absurd h.symm apart
  | cons e es ih =>
    cases es' with
    | nil =>
      rw [List.map_cons, laterOptions_cons, List.append_assoc] at h
      exact absurd h apart
    | cons e' es' =>
      simp only [List.map_cons, laterOptions_cons, List.append_assoc, List.append_cancel_left_eq]
        at h
      obtain ⟨rfl, later⟩ := headerLine_prefix h
      obtain ⟨rfl, rest⟩ := ih es' later
      exact ⟨rfl, rest⟩

theorem bodyOptions_injective {b b' : Option Text}
    (h : laterOptions (bodyOptions b) = laterOptions (bodyOptions b')) : b = b' := by
  cases b with
  | none =>
    cases b' with
    | none => rfl
    | some body' => simp [laterOptions, bodyOptions, Text.ofString] at h
  | some body =>
    cases b' with
    | none => simp [laterOptions, bodyOptions, Text.ofString] at h
    | some body' =>
      simp only [laterOptions, bodyOptions, List.flatMap_cons, List.append_assoc,
        List.append_cancel_left_eq] at h
      obtain ⟨same, -⟩ := expression_prefix h
      exact congrArg some same

theorem headerOptions_cons (e : Text × Text) (es : Entries Text) (b : Option Text) :
    laterOptions (headerOptions (e :: es) ++ bodyOptions b) = ",\n" ++ ("headers: \x7b\n"
      ++ (headerLine e ++ (laterOptions (es.map headerLine)
      ++ ("\n\x7d" ++ laterOptions (bodyOptions b))))) := by
  have option : headerOptions (e :: es) = ["headers: \x7b\n"
      ++ (headerLine e ++ laterOptions (es.map headerLine)) ++ "\n\x7d"] := rfl
  rw [option, List.singleton_append, laterOptions_cons]
  simp only [List.append_assoc]

/-- Headers and body have options of their own, and no headers have no option. -/
theorem headerOptions_prefix {es es' : Entries Text} {b b' : Option Text}
    (h : laterOptions (headerOptions es ++ bodyOptions b)
      = laterOptions (headerOptions es' ++ bodyOptions b')) : es = es' ∧ b = b' := by
  have apart : ∀ {e : Text × Text} {es : Entries Text} {b b' : Option Text},
      laterOptions (headerOptions [] ++ bodyOptions b)
        ≠ laterOptions (headerOptions (e :: es) ++ bodyOptions b') := by
    intro e es b b' same
    rw [headerOptions_cons] at same
    cases b with
    | none => simp [laterOptions, headerOptions, bodyOptions, Text.ofString] at same
    | some body =>
      have letter : some (CodePoint.scalar 'b') = some (.scalar 'h') := congrArg (·[2]?) same
      exact absurd letter (by decide)
  cases es with
  | nil =>
    cases es' with
    | nil => exact ⟨rfl, bodyOptions_injective h⟩
    | cons e' es' => exact absurd h apart
  | cons e es =>
    cases es' with
    | nil => exact absurd h.symm apart
    | cons e' es' =>
      simp only [headerOptions_cons, List.append_cancel_left_eq] at h
      obtain ⟨rfl, later⟩ := headerLine_prefix h
      obtain ⟨rfl, rest⟩ := headerLines_prefix es es' later
      exact ⟨rfl, bodyOptions_injective rest⟩

theorem requestOptions_eq (q : HttpRequest) :
    Text.join ",\n" (requestOptions q) = "signal: controller.signal" ++ (",\n" ++ ("method: "
      ++ (literal q.method.name
        ++ laterOptions (headerOptions q.headerEntries ++ bodyOptions q.sentBody)))) := by
  simp [requestOptions, Text.join, laterOptions]

theorem requestOptions_injective {q q' : HttpRequest}
    (h : Text.join ",\n" (requestOptions q) = Text.join ",\n" (requestOptions q')) :
    q.method = q'.method ∧ q.headerEntries = q'.headerEntries ∧ q.sentBody = q'.sentBody := by
  simp only [requestOptions_eq, List.append_cancel_left_eq] at h
  obtain ⟨method, h⟩ := literal_prefix h
  exact ⟨Method.name_injective method, headerOptions_prefix h⟩

/-! ## The action -/

/-- The options are the last part of the program that depends on the request, so their margin can be
taken away. -/
theorem agrees_of_request {q q' : HttpRequest} {r : Text}
    (h : onLines (actionLines (.http q)) ++ r = onLines (actionLines (.http q')) ++ r) :
    (Action.http q).Agrees (.http q') := by
  simp only [actionLines, onLines_append, onLines_cons, List.append_assoc,
    List.append_cancel_left_eq] at h
  obtain ⟨url, h⟩ := expression_prefix h
  simp only [List.append_cancel_left_eq, List.append_cancel_right_eq] at h
  obtain ⟨method, headers, body⟩ := requestOptions_injective (Text.indent_injective (by decide) h)
  exact ⟨url, method, headers, body⟩

theorem agrees_of_script {code code' r : Text}
    (h : onLines (actionLines (.script code)) ++ r = onLines (actionLines (.script code')) ++ r) :
    (Action.script code).Agrees (.script code') := by
  simp only [actionLines, onLines_append, onLines_cons, List.append_assoc,
    List.append_cancel_left_eq] at h
  obtain ⟨same, -⟩ := literal_prefix h
  exact same

theorem checksOutput_congr {s t : Spell} (output : s.outputSchema = t.outputSchema) :
    s.checksOutput = t.checksOutput := by
  rw [Spell.checksOutput, output, Spell.checksOutput]

theorem actionLines_congr {a b : Action} (agrees : a.Agrees b) : actionLines a = actionLines b := by
  cases a <;> cases b
  · obtain ⟨url, method, headers, body⟩ := agrees
    simp only [actionLines, requestOptions, url, method, headers, body]
  · exact agrees.elim
  · exact agrees.elim
  · exact congrArg (fun code => actionLines (.script code)) agrees

theorem helperLines_congr {a b : Action} (agrees : a.Agrees b) : helperLines a = helperLines b := by
  cases a <;> cases b
  · simp only [helperLines, agrees.interpolates]
  · exact agrees.elim
  · exact agrees.elim
  · rfl

theorem settingLines_congr {a b : Action} (agrees : a.Agrees b) :
    settingLines a = settingLines b := by
  cases a <;> cases b
  · rfl
  · exact agrees.elim
  · exact agrees.elim
  · rfl

/-- Two spells have the same program exactly when they agree in their names, descriptions and
schemas and their actions do the same; their identifiers do not matter. -/
theorem text_eq_text_iff (s t : Spell) : text s = text t ↔ s.Agrees t := by
  constructor
  · intro h
    simp only [text_eq, List.append_cancel_left_eq] at h
    obtain ⟨name, description, input, output, h⟩ := headLines_prefix h
    -- The schemas decide on two of the sections that follow.
    have checks := checksOutput_congr output
    simp only [outputLines, checks, List.append_cancel_left_eq] at h
    obtain ⟨⟨q, q', action, action'⟩ | ⟨code, code', action, action'⟩, h⟩ := settingLines_prefix h
    · rw [action, action'] at h
      have rest := helperLines_prefix h
      simp only [List.append_cancel_left_eq] at rest
      refine ⟨name, description, input, output, ?_⟩
      rw [action, action']
      exact agrees_of_request rest
    · have helpers : helperLines (.script code) = helperLines (.script code') := rfl
      rw [action, action', helpers] at h
      simp only [List.append_cancel_left_eq] at h
      refine ⟨name, description, input, output, ?_⟩
      rw [action, action']
      exact agrees_of_script h
  · rintro ⟨name, description, input, output, action⟩
    simp only [text, lines, headLines, outputLines, checksOutput_congr output, name, description,
      input, output, settingLines_congr action, helperLines_congr action, actionLines_congr action]

end Program

end Grimoire
