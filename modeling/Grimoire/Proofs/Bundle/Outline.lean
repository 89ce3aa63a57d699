import Grimoire.Proofs.Book.Sample
import Grimoire.Proofs.Bundle.Program
import Grimoire.Proofs.Literal

/-!
# What the texts of a spell can change in its program

Two spells have the same outline if their schemas are the same, and their actions are of one kind
and have placeholders in the same places. Their programs have equally many lines, and where two
lines differ they are the same but for the literals in them (`Program.lines_alike`). So no text of a
spell, whatever stands in it, can reach beyond its own literal.
-/

namespace Grimoire

/-! ## Outlines -/

/-- The templates that a request sends: its address, the values of its headers and its body, if one
is sent. -/
def HttpRequest.sentTemplates (r : HttpRequest) : List Text :=
  r.url :: (r.headerEntries.values ++ r.sentBody.toList)

/-- Two actions have the same outline: they are of one kind, and requests have equally many headers,
both a body or neither, and placeholders in the same ones of the templates that they send. -/
def Action.SameOutline : Action → Action → Prop
  | .http r, .http q => r.headerEntries.length = q.headerEntries.length ∧
      r.sentBody.isSome = q.sentBody.isSome ∧
      r.sentTemplates.map Template.hasPlaceholder = q.sentTemplates.map Template.hasPlaceholder
  | .script _, .script _ => True
  | _, _ => False

/-- Two spells have the same outline: the same schemas, and actions of the same outline. -/
structure Spell.SameOutline (s t : Spell) : Prop where
  inputSchema : s.inputSchema = t.inputSchema
  outputSchema : s.outputSchema = t.outputSchema
  action : s.action.SameOutline t.action

namespace HttpRequest

theorem interpolates_eq (r : HttpRequest) :
    r.interpolates = (r.sentTemplates.map Template.hasPlaceholder).any id := by
  rw [interpolates, sentTemplates]
  cases r.sentBody <;> simp [Bool.or_assoc, Bool.or_comm, List.any_map]

/-- Whether two templates both have placeholders or neither has. -/
def BothFilled (t u : Text) : Prop := Template.hasPlaceholder t = Template.hasPlaceholder u

/-- In requests of the same outline the same templates have placeholders. -/
theorem bothFilled_of_outline {r q : HttpRequest}
    (outline : (Action.http r).SameOutline (.http q)) :
    BothFilled r.url q.url ∧
      List.Forall₂ (fun e f => BothFilled e.2 f.2) r.headerEntries q.headerEntries ∧
      Option.Rel BothFilled r.sentBody q.sentBody := by
  obtain ⟨count, sent, flags⟩ := outline
  rw [sentTemplates, sentTemplates, List.map_cons, List.map_cons, List.map_append, List.map_append]
    at flags
  obtain ⟨url, flags⟩ := List.cons.inj flags
  obtain ⟨headers, body⟩ := List.append_inj flags (by simpa [Entries.values] using count)
  refine ⟨url, ?_, ?_⟩
  · rw [Entries.values, Entries.values, List.map_map, List.map_map, ← List.forall₂_eq_eq_eq,
      List.forall₂_map_left_iff, List.forall₂_map_right_iff] at headers
    exact headers
  · cases first : r.sentBody <;> cases second : q.sentBody <;> rw [first, second] at sent body
    · exact .none
    · exact absurd sent (by simp)
    · exact absurd sent (by simp)
    · exact .some (List.cons.inj body).1

end HttpRequest

namespace Program

open Script

/-! ## Alike parts -/

/-- Whether two texts have the same lines but for literals. -/
def LinesAlike (a b : Text) : Prop := List.Forall₂ (fun l l' => l = l' ∨ Alike l l') a.lines b.lines

theorem LinesAlike.refl (t : Text) : LinesAlike t t := List.forall₂_same.mpr fun _ _ => .inl rfl

theorem LinesAlike.of_alike {a b : Text} (alike : Alike a b) : LinesAlike a b :=
  alike.lines.imp fun _ _ => .inr

theorem LinesAlike.at_line {a b : Text} (alike : LinesAlike a b) {i : Nat} {l l' : Text}
    (first : a.lines[i]? = some l) (second : b.lines[i]? = some l') : l = l' ∨ Alike l l' := by
  obtain ⟨within, rfl⟩ := List.getElem?_eq_some_iff.mp first
  obtain ⟨within', rfl⟩ := List.getElem?_eq_some_iff.mp second
  exact List.Forall₂.get alike within within'

theorem linesAlike_same (ts : List Text) : List.Forall₂ LinesAlike ts ts :=
  List.forall₂_same.mpr fun t _ => .refl t

/-- Texts that are joined have the lines of the texts. -/
theorem linesAlike_join {ts us : List Text} (each : List.Forall₂ LinesAlike ts us) :
    LinesAlike (Text.join "\n" ts) (Text.join "\n" us) := by
  cases each with
  | nil => exact .refl _
  | cons first rest =>
    rw [LinesAlike, Text.lines_join, Text.lines_join]
    exact List.rel_flatMap (.cons first rest) fun _ _ alike => alike

/-- Fixed text around texts that are alike. -/
theorem alike_between {front back : Text} (plain : .scalar '"' ∉ front)
    (plain' : .scalar '"' ∉ back) {a b : Text} (alike : Alike a b) :
    Alike (front ++ a ++ back) (front ++ b ++ back) :=
  ((Alike.refl plain).append alike).append (.refl plain')

theorem alike_join {sep : Text} (plain : .scalar '"' ∉ sep) {ts us : List Text}
    (each : List.Forall₂ Alike ts us) : Alike (Text.join sep ts) (Text.join sep us) := by
  cases each with
  | nil => exact .nil
  | @cons t u ts us first rest =>
    rw [Text.join, Text.join]
    refine first.append ?_
    induction rest with
    | nil => exact .nil
    | cons next _ ih =>
      rw [List.flatMap_cons, List.flatMap_cons]
      exact ((Alike.refl plain).append next).append ih

/-! ## The sections of the program -/

theorem headLines_alike {s t : Spell} (outline : s.SameOutline t) :
    List.Forall₂ LinesAlike (headLines s) (headLines t) := by
  have name : Alike ("const TOOL_NAME = " ++ literal s.name ++ ";")
      ("const TOOL_NAME = " ++ literal t.name ++ ";") :=
    alike_between (by decide) (by decide) (.of_literal _ _)
  have description : Alike ("const TOOL_DESCRIPTION = " ++ literal s.description ++ ";")
      ("const TOOL_DESCRIPTION = " ++ literal t.description ++ ";") :=
    alike_between (by decide) (by decide) (.of_literal _ _)
  rw [headLines, headLines, outline.inputSchema, outline.outputSchema]
  exact .cons (.refl _) (.cons (.of_alike name) (.cons (.of_alike description) (linesAlike_same _)))

theorem settingLines_outline {a b : Action} (outline : a.SameOutline b) :
    settingLines a = settingLines b := by
  cases a <;> cases b
  · rfl
  · exact outline.elim
  · exact outline.elim
  · rfl

theorem helperLines_outline {a b : Action} (outline : a.SameOutline b) :
    helperLines a = helperLines b := by
  cases a <;> cases b
  · have same : Action.interpolates (.http _) = Action.interpolates (.http _) :=
      (HttpRequest.interpolates_eq _).trans
        ((congrArg (List.any · id) outline.2.2).trans (HttpRequest.interpolates_eq _).symm)
    rw [helperLines, helperLines, same]
  · exact outline.elim
  · exact outline.elim
  · rfl

/-- Headers go to the same lines: the option is there in both requests or in neither. -/
theorem headerOptions_alike {es fs : Entries Text}
    (filled : List.Forall₂ (fun e f => HttpRequest.BothFilled e.2 f.2) es fs) :
    List.Forall₂ Alike (headerOptions es) (headerOptions fs) := by
  cases filled with
  | nil => exact .nil
  | @cons e f es fs first rest =>
    have lines : List.Forall₂ Alike ((e :: es).map headerLine) ((f :: fs).map headerLine) := by
      have filled : List.Forall₂ (fun e f => HttpRequest.BothFilled e.2 f.2) (e :: es) (f :: fs) :=
        .cons first rest
      rw [List.forall₂_map_left_iff, List.forall₂_map_right_iff]
      refine filled.imp fun e f same => ?_
      have named : Alike ("  " ++ literal e.1 ++ ": ") ("  " ++ literal f.1 ++ ": ") :=
        alike_between (by decide) (by decide) (.of_literal _ _)
      exact named.append (alike_expression same)
    exact .cons (alike_between (by decide) (by decide) (alike_join (by decide) lines)) .nil

theorem bodyOptions_alike {b c : Option Text} (filled : Option.Rel HttpRequest.BothFilled b c) :
    List.Forall₂ Alike (bodyOptions b) (bodyOptions c) := by
  cases filled with
  | none => exact .nil
  | some same => exact .cons ((Alike.refl (by decide)).append (alike_expression same)) .nil

theorem requestOptions_alike {r q : HttpRequest}
    (outline : (Action.http r).SameOutline (.http q)) :
    List.Forall₂ Alike (requestOptions r) (requestOptions q) := by
  obtain ⟨-, headers, body⟩ := HttpRequest.bothFilled_of_outline outline
  have method : Alike ("method: " ++ literal r.method.name) ("method: " ++ literal q.method.name) :=
    (Alike.refl (by decide)).append (.of_literal _ _)
  exact .cons (.refl (by decide)) (.cons method
    (List.rel_append (headerOptions_alike headers) (bodyOptions_alike body)))

theorem actionLines_alike {a b : Action} (outline : a.SameOutline b) :
    List.Forall₂ LinesAlike (actionLines a) (actionLines b) := by
  cases a with
  | http r =>
    cases b with
    | http q =>
      have url : Alike ("    const targetUrl = " ++ expression r.url ++ ";")
          ("    const targetUrl = " ++ expression q.url ++ ";") :=
        alike_between (by decide) (by decide)
          (alike_expression (HttpRequest.bothFilled_of_outline outline).1)
      have options : LinesAlike (Text.indent "      " (Text.join ",\n" (requestOptions r)))
          (Text.indent "      " (Text.join ",\n" (requestOptions q))) :=
        (Alike.lines_indent (by decide) (by decide)
          (alike_join (by decide) (requestOptions_alike outline))).imp fun _ _ => .inr
      exact List.rel_append (linesAlike_same _) (.cons (.of_alike url)
        (List.rel_append (linesAlike_same _) (.cons options (linesAlike_same _))))
    | script code => exact outline.elim
  | script code =>
    cases b with
    | http q => exact outline.elim
    | script code' =>
      have call : Alike ("    fn = new AsyncFunction('input', " ++ literal code ++ ");")
          ("    fn = new AsyncFunction('input', " ++ literal code' ++ ");") :=
        alike_between (by decide) (by decide) (.of_literal _ _)
      exact List.rel_append (linesAlike_same _) (.cons (.of_alike call) (linesAlike_same _))

/-! ## The whole program -/

/-- Sections that depend on the outline only are the same, and the others are alike. -/
theorem linesAlike_text {s t : Spell} (outline : s.SameOutline t) :
    LinesAlike (text s) (text t) := by
  have checks := checksOutput_congr outline.outputSchema
  rw [text, text]
  apply linesAlike_join
  rw [lines, lines, outputLines, outputLines, checks, settingLines_outline outline.action,
    helperLines_outline outline.action]
  have head :
      List.Forall₂ LinesAlike (fixed imports ++ headLines s) (fixed imports ++ headLines t) :=
    List.rel_append (linesAlike_same _) (headLines_alike outline)
  have action := actionLines_alike outline.action
  -- The sections are taken off from the end: all are the same but the action and the head.
  repeat refine List.rel_append ?_ (linesAlike_same _)
  refine List.rel_append ?_ action
  repeat refine List.rel_append ?_ (linesAlike_same _)
  exact head

/-- The programs of two spells of the same outline have equally many lines, and lines that differ
are the same but for the literals in them. -/
theorem lines_alike {s t : Spell} (outline : s.SameOutline t) :
    (text s).lines.length = (text t).lines.length ∧
      ∀ (i : Nat) (l l' : Text), (text s).lines[i]? = some l → (text t).lines[i]? = some l' →
        l ≠ l' → Alike l l' :=
  have each := linesAlike_text outline
  ⟨each.length_eq, fun _ _ _ first second differ => (each.at_line first second).resolve_left differ⟩

/-- A spell with a friendly request. -/
def friendly : Spell :=
  { Spell.sample with
    action := .http ⟨"https://a.test/\x7b\x7bq\x7d\x7d", .post, some [("X-A", "1")], some "hello"⟩ }

/-- A spell that tries to end its literals and the lines that they are on. -/
def hostile : Spell :=
  { Spell.sample with
    name := "say-nothing"
    description := (List.replicate 98 (.scalar '\n') : Text) ++ "\";\\\"; process.exit(); //"
    action := .http ⟨"https://b.test/\x7b\x7bq\x7d\x7d\u2028", .put,
      some [("\": \"", "\\\u2029\", \"")], some "\"\x7d);\nprocess.exit();\\"⟩ }

theorem lines_alike_hostile : friendly.SameOutline hostile ∧
    (text friendly).lines.length = (text hostile).lines.length ∧
      ∀ (i : Nat) (l l' : Text), (text friendly).lines[i]? = some l →
        (text hostile).lines[i]? = some l' → l ≠ l' → Alike l l' := by
  have action : friendly.action.SameOutline hostile.action :=
    ⟨by decide, by decide, by decide +kernel⟩
  have outline : friendly.SameOutline hostile := ⟨rfl, rfl, action⟩
  exact ⟨outline, lines_alike outline⟩

end Program

end Grimoire
