import Grimoire.Proofs.Json.Finite

/-!
# Values that can be encoded

A printed value can be encoded exactly when each text in it can (`Json.isEncodable_pretty`): escapes
and what stands between the parts always can. Putting null in the place of numbers that are not
finite leaves the texts as they are (`Json.texts_finite`).
-/

namespace Grimoire.Json

theorem isScalar_escapeBasic (c : CodePoint) :
    (∀ d ∈ escapeBasic c, d.isScalar = true) ↔ c.isScalar = true := by
  rcases escapeBasic_cases c with ⟨d, e, rfl, escaped, -, simple⟩ | ⟨control, escaped⟩ |
    ⟨-, -, -, escaped⟩
  · rw [escaped, List.forall_mem_cons, List.forall_mem_singleton]
    refine iff_of_true ⟨rfl, ?_⟩ rfl
    cases e with
    | scalar e => rfl
    | surrogate s => exact absurd simple (by simp [simpleEscape?])
  · have digits : ∀ n < 0x20, ∀ d ∈ ("\\u" ++ Text.hex 4 n : Text), d.isScalar = true := by decide
    rw [escaped]
    refine iff_of_true (digits c.val control) ?_
    cases c with
    | scalar c => rfl
    | surrogate s =>
      simp only [CodePoint.val] at control
      omega
  · rw [escaped, List.forall_mem_singleton]

/-- Nothing that is printed is a surrogate but the surrogates in texts. -/
theorem shows_isScalar : Layout.indented.Shows fun c => c.isScalar = true := by
  have newLine : ∀ level, ∀ c ∈ newLine level, c.isScalar = true := by
    intro level c member
    rcases List.mem_cons.mp member with rfl | member
    · rfl
    · rw [List.eq_of_mem_replicate member]
      rfl
  refine ⟨fun c atomic => ?_, by decide, isScalar_escapeBasic, newLine, newLine⟩
  cases c with
  | scalar c => rfl
  | surrogate s => exact absurd atomic (by simp [isAtomic, CodePoint.satisfies])

/-- A printed value can be encoded exactly when each text in it can. -/
theorem isEncodable_pretty {v : Json} :
    (pretty v).isEncodable = true ↔ ∀ t ∈ v.texts, t.isEncodable = true := by
  simp only [Text.isEncodable, List.all_eq_true]
  exact forall_mem_print_iff shows_isScalar 0 v

theorem isEncodable_pretty_arr {vs : List Json} :
    (pretty (.arr vs)).isEncodable = true ↔ ∀ v ∈ vs, (pretty v).isEncodable = true := by
  simp only [isEncodable_pretty, texts, forall_mem_textsItems]

mutual

theorem texts_finite (v : Json) : (finite v).texts = v.texts := by
  cases v with
  | float x =>
    rcases finite_float x with ⟨h, -⟩ | h
    · rw [h]
    · rw [h]
      rfl
  | arr vs => simp only [finite, texts, textsItems_finiteItems vs]
  | obj ms => simp only [finite, texts, textsMembers_finiteMembers ms]
  | _ => rfl

theorem textsItems_finiteItems (vs : List Json) : textsItems (finiteItems vs) = textsItems vs := by
  cases vs with
  | nil => rfl
  | cons v vs => simp only [finiteItems, textsItems, texts_finite v, textsItems_finiteItems vs]

theorem textsMembers_finiteMembers (ms : Members) :
    textsMembers (finiteMembers ms) = textsMembers ms := by
  cases ms with
  | nil => rfl
  | cons m ms =>
    simp only [finiteMembers, textsMembers, texts_finite m.2, textsMembers_finiteMembers ms]

end

end Grimoire.Json
