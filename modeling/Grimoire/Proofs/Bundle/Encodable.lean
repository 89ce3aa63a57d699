import Grimoire.Bundle.Basic
import Grimoire.Proofs.Spell.Storable
import Grimoire.Proofs.Template

/-!
# Bundles that can be encoded

What is generated for a spell is put together from fixed texts, numbers, and texts of the spell. So the
files of its bundle can be encoded if the texts of the spell can (`Bundle.isEncodable_ofSpell`).
-/

namespace Grimoire

/-! ## Texts -/

namespace Text

@[simp]
theorem isEncodable_nil : isEncodable [] = true := rfl

@[simp]
theorem isEncodable_append (t u : Text) :
    isEncodable (t ++ u) = (t.isEncodable && u.isEncodable) := List.all_append

@[simp]
theorem isEncodable_ofString (s : String) : (ofString s).isEncodable = true := by
  simp [isEncodable, ofString, CodePoint.isScalar]

@[simp]
theorem isEncodable_ofNat (n : Nat) : (ofNat n).isEncodable = true := by
  simp [isEncodable, ofNat, CodePoint.isScalar]

theorem isEncodable_join {sep : Text} {ts : List Text} (between : sep.isEncodable = true)
    (each : ∀ t ∈ ts, t.isEncodable = true) : (join sep ts).isEncodable = true := by
  cases ts with
  | nil => rfl
  | cons t ts =>
    rw [List.forall_mem_cons] at each
    have rest : isEncodable (ts.flatMap (sep ++ ·)) = true := by
      rw [isEncodable, List.all_flatMap, List.all_eq_true]
      intro u member
      exact (isEncodable_append sep u).trans (by rw [between, each.2 u member]; rfl)
    rw [join, isEncodable_append, each.1, rest]
    rfl

theorem isEncodable_indent {margin t : Text} (margin' : margin.isEncodable = true)
    (encodable : t.isEncodable = true) : (indent margin t).isEncodable = true := by
  refine isEncodable_join rfl fun u member => ?_
  obtain ⟨line, inside, rfl⟩ := List.mem_map.mp member
  have plain : line.isEncodable = true := by
    rw [isEncodable, List.all_eq_true] at encodable ⊢
    exact fun c member => encodable c (subset_of_mem_splitOn line inside c member)
  split
  · exact plain
  · rw [isEncodable_append, margin', plain]
    rfl

theorem isEncodable_lower {t : Text} (encodable : t.isEncodable = true) :
    (lower t).isEncodable = true := by
  have go (inWord : Bool) (done : Text) (first : isEncodable done = true) :
      (lower.go inWord done t).isEncodable = true := by
    induction t generalizing inWord done with
    | nil => simpa [lower.go, isEncodable] using first
    | cons c t ih =>
      simp only [isEncodable, List.all_cons, Bool.and_eq_true] at encodable first ih
      have small : (lowerCodePoint c).isScalar = true := by
        unfold lowerCodePoint
        split
        · split
          · rfl
          · exact encodable.1
        · split
          · rfl
          · exact encodable.1
      unfold lower.go
      dsimp only
      split
      · exact ih encodable.2 _ _ (by simpa [CodePoint.isScalar] using first)
      · split
        · exact ih encodable.2 _ _ (by simpa [CodePoint.isScalar] using first)
        · exact ih encodable.2 _ _ (by simpa [small] using first)
  exact go false [] rfl

end Text

/-! ## Literals and values -/

namespace Script

open Json

theorem isEncodable_escapeSeparators {t : Text} (encodable : t.isEncodable = true) :
    (escapeSeparators t).isEncodable = true := by
  rw [Text.isEncodable, escapeSeparators, List.all_flatMap, List.all_eq_true]
  rw [Text.isEncodable, List.all_eq_true] at encodable
  intro c member
  split
  · rfl
  · split
    · rfl
    · simpa using encodable c member

theorem isEncodable_jsonBlock {ms : Members}
    (texts : ∀ t ∈ (Json.obj ms).texts, t.isEncodable = true) :
    (jsonBlock (.obj ms)).isEncodable = true := isEncodable_pretty.mpr texts

theorem isEncodable_value {ms : Members} (texts : ∀ t ∈ (Json.obj ms).texts, t.isEncodable = true) :
    (value (.obj ms)).isEncodable = true :=
  isEncodable_escapeSeparators (isEncodable_jsonBlock texts)

theorem isEncodable_literal {t : Text} (encodable : t.isEncodable = true) :
    (literal t).isEncodable = true := by
  refine isEncodable_escapeSeparators ?_
  have printed : Json.line (.str t) = pretty (.str t) := by rw [Json.line, pretty, print, print]; rfl
  rw [printed]
  exact isEncodable_pretty.mpr (by simpa [Json.texts] using encodable)

theorem isEncodable_expression {t : Text} (encodable : t.isEncodable = true) :
    (expression t).isEncodable = true := by
  unfold expression
  split
  · simp [isEncodable_literal encodable]
  · exact isEncodable_literal encodable

end Script

/-! ## Programs -/

namespace Program

open Text Script Grimoire.Bundle

/-- Whether the texts of an action that land in a program can be encoded. -/
def IsEncodableAction : Action → Prop
  | .http r => r.url.isEncodable = true ∧
      (∀ e ∈ r.headerEntries, e.1.isEncodable = true ∧ e.2.isEncodable = true) ∧
      ∀ body ∈ r.sentBody, body.isEncodable = true
  | .script code => code.isEncodable = true

theorem isEncodable_fixed (ls : List String) : ∀ l ∈ fixed ls, l.isEncodable = true := by
  simp [fixed]

theorem isEncodable_headerOptions {headers : Entries Text}
    (each : ∀ e ∈ headers, e.1.isEncodable = true ∧ e.2.isEncodable = true) :
    ∀ l ∈ headerOptions headers, l.isEncodable = true := by
  unfold headerOptions
  dsimp only
  split
  · simp
  · have lines : isEncodable (join ",\n" (headers.map fun e =>
        "  " ++ literal e.1 ++ ": " ++ expression e.2)) = true := by
      refine isEncodable_join (by simp) fun l member => ?_
      obtain ⟨e, inside, rfl⟩ := List.mem_map.mp member
      simp [isEncodable_literal (each e inside).1, isEncodable_expression (each e inside).2]
    simp only [List.forall_mem_singleton, isEncodable_append, isEncodable_ofString, lines,
      Bool.and_true]

theorem isEncodable_actionLines {a : Action} (encodable : IsEncodableAction a) :
    ∀ l ∈ actionLines a, l.isEncodable = true := by
  cases a with
  | script code =>
    rw [actionLines]
    simp only [List.forall_mem_append, List.forall_mem_cons, isEncodable_append,
      isEncodable_ofString, isEncodable_literal (show code.isEncodable = true from encodable)]
    exact ⟨isEncodable_fixed _, by simp, isEncodable_fixed _⟩
  | http r =>
    obtain ⟨url, headers, body⟩ := encodable
    have method : r.method.name.isEncodable = true := by cases r.method <;> decide
    have options : ∀ l ∈ requestOptions r, l.isEncodable = true := by
      rw [requestOptions]
      simp only [List.forall_mem_append, List.forall_mem_cons, isEncodable_append,
        isEncodable_ofString, isEncodable_literal method]
      refine ⟨trivial, rfl, isEncodable_headerOptions headers, ?_⟩
      cases sent : r.sentBody with
      | none => simp [bodyOptions]
      | some t => simp [bodyOptions, isEncodable_expression (body t sent)]
    have indented : isEncodable (indent "      " (join ",\n" (requestOptions r))) = true :=
      isEncodable_indent (by simp) (isEncodable_join (by simp) options)
    rw [actionLines]
    simp only [List.forall_mem_append, List.forall_mem_cons, isEncodable_append,
      isEncodable_ofString, isEncodable_expression url, indented]
    exact ⟨isEncodable_fixed _, rfl, isEncodable_fixed _, trivial, isEncodable_fixed _⟩

theorem isEncodable_settingLines (a : Action) : ∀ l ∈ settingLines a, l.isEncodable = true := by
  have setting (name : String) (s : Setting) (named : s.name.isEncodable = true) :
      (settingLine name s).isEncodable = true := by simp [settingLine, named]
  have hosts : hostsVariable.isEncodable = true := by decide
  have all : (literal defaultHosts).isEncodable = true := isEncodable_literal (by decide)
  cases a <;> simp [settingLines, hosts, all, setting _ responseSize (by decide),
    setting _ requestTime (by decide), setting _ scriptTime (by decide)]

/-- The program of a spell can be encoded if the texts can that land in it. -/
theorem isEncodable_text {s : Spell} (name : s.name.isEncodable = true)
    (description : s.description.isEncodable = true)
    (input : ∀ t ∈ (Json.obj s.inputSchema).texts, t.isEncodable = true)
    (output : ∀ t ∈ (Json.obj s.outputSchema).texts, t.isEncodable = true)
    (action : IsEncodableAction s.action) : (text s).isEncodable = true := by
  have head : ∀ l ∈ headLines s, l.isEncodable = true := by
    simp [headLines, isEncodable_literal name, isEncodable_literal description,
      isEncodable_value input, isEncodable_value output]
  have announced : ∀ l ∈ announcement, l.isEncodable = true := by
    simp [announcement, isEncodable_literal (t := packageVersion) (by decide)]
  refine isEncodable_join (by simp) ?_
  rw [lines]
  simp only [List.forall_mem_append, and_assoc]
  exact ⟨isEncodable_fixed _, head, isEncodable_fixed _, isEncodable_fixed _,
    isEncodable_settingLines _, isEncodable_fixed _, announced, isEncodable_fixed _,
    isEncodable_fixed _, isEncodable_fixed _, isEncodable_fixed _, isEncodable_actionLines action,
    isEncodable_fixed _, isEncodable_fixed _⟩

end Program

/-! ## Bundles -/

namespace Bundle

open Text Script

variable {s : Spell}

theorem isEncodable_imageText : imageText.isEncodable = true := by
  refine isEncodable_join (by simp) ?_
  simp [baseImage, manifestFile, programFile]

theorem isEncodable_manifestText (name : s.name.isEncodable = true) :
    (manifestText s).isEncodable = true := by
  have block : (jsonBlock (manifest s.packageName)).isEncodable = true :=
    isEncodable_jsonBlock (by
      simp [Json.texts, Json.textsMembers, Spell.packageName, packageVersion, programFile, name])
  simp [manifestText, block]

theorem isEncodable_settings : scriptTime.name.isEncodable = true ∧
    requestTime.name.isEncodable = true ∧ responseSize.name.isEncodable = true ∧
    hostsVariable.isEncodable = true ∧ defaultHosts.isEncodable = true ∧
    (secondsText scriptTime.value).isEncodable = true ∧
    (secondsText requestTime.value).isEncodable = true ∧
    (sizeText responseSize.value).isEncodable = true := by decide +kernel

theorem isEncodable_securityNotice (a : Action) : (securityNotice a).isEncodable = true := by
  cases a <;> simp [securityNotice, isEncodable_settings]

theorem isEncodable_fenced {ms : Members} (texts : ∀ t ∈ (Json.obj ms).texts, t.isEncodable = true) :
    ∀ l ∈ fenced (.obj ms), l.isEncodable = true := by
  simp [fenced, isEncodable_jsonBlock texts]

/-- The guide of a spell can be encoded if the texts can that land in it. -/
theorem isEncodable_guideText (name : s.name.isEncodable = true)
    (description : s.description.isEncodable = true)
    (input : ∀ t ∈ (Json.obj s.inputSchema).texts, t.isEncodable = true)
    (output : ∀ t ∈ (Json.obj s.outputSchema).texts, t.isEncodable = true) :
    (guideText s).isEncodable = true := by
  have image : s.imageName.isEncodable = true := isEncodable_lower name
  have head : ∀ l ∈ guideHead s, l.isEncodable = true := by
    simp [guideHead, name, description, image, isEncodable_securityNotice, Spell.packageName]
  have registered : ∀ l ∈ fenced (registration s), l.isEncodable = true := by
    refine isEncodable_fenced ?_
    simp [Json.texts, Json.textsMembers, Json.textsItems, name, image]
  have tail : ∀ l ∈ guideTail s, l.isEncodable = true := by
    simp [guideTail, settingRow, numberRow, isEncodable_settings, image]
  refine isEncodable_join (by simp) ?_
  simp only [guideLines, schemaSection, List.forall_mem_append, List.forall_mem_cons, and_assoc]
  exact ⟨head, registered, rfl, by simp, rfl, isEncodable_fenced input, rfl, by simp, rfl,
    isEncodable_fenced output, tail⟩

/-- The files of the bundle of a spell can be encoded if the texts of the spell can. -/
theorem isEncodable_ofSpell (valid : s.IsValid)
    (loose : ∀ t ∈ s.looseTexts, t.isEncodable = true) :
    ∀ e ∈ ofSpell s, e.2.isEncodable = true := by
  have name := (Spell.nameFault?_eq_none_iff.mp valid.name).1.encodable
  have description := (Spell.lengthFault?_eq_none_iff.mp valid.description).encodable
  rw [Spell.looseTexts, List.forall_mem_append, List.forall_mem_append] at loose
  obtain ⟨⟨input, output⟩, loose⟩ := loose
  have action : Program.IsEncodableAction s.action := by
    have valid := valid.action
    cases kind : s.action with
    | script code =>
      rw [kind] at valid
      exact (Spell.lengthFault?_eq_none_iff.mp valid).encodable
    | http r =>
      rw [kind] at valid loose
      rw [Action.looseTexts, List.forall_mem_append, List.forall_mem_flatMap] at loose
      refine ⟨Url.isEncodable_of_isAbsolute valid, fun e member => ?_, fun body sent => ?_⟩
      · simpa using loose.1 e member
      · unfold HttpRequest.sentBody at sent
        split at sent
        · exact loose.2 body (by simpa using sent)
        · exact absurd sent (by simp)
  simp only [ofSpell, List.forall_mem_cons]
  exact ⟨isEncodable_imageText, isEncodable_manifestText name,
    Program.isEncodable_text name description input output action,
    isEncodable_guideText name description input output, by simp⟩

end Bundle

end Grimoire
