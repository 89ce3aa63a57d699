import Grimoire.Proofs.Spell.NormalForm
import Grimoire.Spell.Advice

/-!
# Advice and checks agree

Advice on a name or a description is given before there is a candidate. It foretells what a check of the
whole candidate will say: a text on which there is no advice can take the place of the name or the
description of an accepted candidate, and any other text is complained about once, at that field
(`Spell.advice_foretells`). Only texts with surrogates are left to the check.
-/

namespace Grimoire.Spell

open Checked Complaint

variable {s : Spell} {members : Members} {t : Text}

/-! ## The same rules in two orders -/

theorem adviseDescription_eq_none_iff (t : Text) :
    adviseDescription t = none ↔
      minDescriptionLength ≤ t.length ∧ t.length ≤ maxDescriptionLength := by
  have least : 0 < minDescriptionLength := by decide
  unfold adviseDescription
  split
  · next empty =>
    rw [List.isEmpty_iff.mp empty]
    simpa using Nat.ne_of_gt least
  · split
    · next short => simpa using fun long => absurd short (Nat.not_lt.mpr long)
    · next long =>
      split
      · next longer => simpa using fun _ => longer
      · next within => simpa using ⟨Nat.not_lt.mp long, Nat.not_lt.mp within⟩

/-- A text without surrogates keeps to the limits if its length does. -/
theorem isWithin_iff {least greatest : Nat} (encodable : t.isEncodable = true) :
    t.IsWithin least (some greatest) ↔ least ≤ t.length ∧ t.length ≤ greatest :=
  ⟨fun within => ⟨within.long, within.short greatest rfl⟩, fun ⟨long, short⟩ =>
    ⟨encodable, long, by rintro n ⟨⟩; exact short⟩⟩

theorem nameFault?_eq_none_iff_advice (encodable : t.isEncodable = true) :
    nameFault? t = none ↔ adviseName t = none := by
  rw [nameFault?_eq_none_iff, adviseName_eq_none_iff, isWithin_iff encodable, and_assoc,
    List.all_eq_true]

theorem descriptionFault?_eq_none_iff_advice (encodable : t.isEncodable = true) :
    descriptionFault? t = none ↔ adviseDescription t = none := by
  rw [descriptionFault?, lengthFault?_eq_none_iff, adviseDescription_eq_none_iff,
    isWithin_iff encodable]

/-! ## One field replaced -/

/-- Whether members differ from others in the name and the description only, as far as checks look. -/
def SameBeside (members others : Members) : Prop :=
  ∀ key ∈ fieldKeys, key ≠ "name" → key ≠ "description" →
    Entries.find? key others = Entries.find? key members

theorem sameBeside_put {key : Text} (either : key = "name" ∨ key = "description") (v : Json)
    (members : Members) : SameBeside members (Entries.put key v members) := by
  intro other _ notName notDescription
  rw [Entries.find?_put, if_neg]
  rintro rfl
  exact either.elim notName notDescription

theorem SameBeside.schemaEntry {others : Members} (same : SameBeside members others)
    {key other : Text} (known : key ∈ fieldKeys ∧ key ≠ "name" ∧ key ≠ "description")
    (known' : other ∈ fieldKeys ∧ other ≠ "name" ∧ other ≠ "description") :
    schemaEntry key other others = schemaEntry key other members := by
  rw [Spell.schemaEntry, Spell.schemaEntry, same key known.1 known.2.1 known.2.2,
    same other known'.1 known'.2.1 known'.2.2]

/-- If a candidate was accepted, the complaints after a change of its name and its description are about
these two. -/
theorem SameBeside.complaints {others : Members} (same : SameBeside members others)
    (accepted : check (.obj members) = .valid s) :
    complaints (check (.obj others))
      = ofNeeded "name" (textFault? nameFault?) (Entries.find? "name" others)
        ++ ofNeeded "description" (textFault? descriptionFault?)
          (Entries.find? "description" others) := by
  have none : fieldComplaints members = [] := by rw [← complaints_obj, accepted, complaints_valid]
  simp only [fieldComplaints, List.append_eq_nil_iff] at none
  obtain ⟨⟨⟨⟨⟨id, -⟩, -⟩, input⟩, output⟩, action⟩ := none
  rw [complaints_obj, fieldComplaints, same.schemaEntry (by decide) (by decide),
    same.schemaEntry (by decide) (by decide), same "id" (by decide) (by decide) (by decide),
    same "action" (by decide) (by decide) (by decide), id, input, output, action]
  simp

/-- What describes a spell describes, with another name and another description, the spell with them. -/
theorem SameBeside.describes {others : Members} (same : SameBeside members others)
    (described : s.IsDescribed members) {name description : Text}
    (named : Entries.find? "name" others = some (.str name)) (name' : nameFault? name = none)
    (told : Entries.find? "description" others = some (.str description))
    (description' : descriptionFault? description = none) :
    IsDescribed { s with name, description } others := by
  obtain ⟨nameWithin, nameCodePoints⟩ := nameFault?_eq_none_iff.mp name'
  refine ⟨?_, described.uuid, named, nameWithin, nameCodePoints, told,
    lengthFault?_eq_none_iff.mp description', ?_, ?_, ?_⟩
  · rw [same "id" (by decide) (by decide) (by decide), described.id]
  · rw [same.schemaEntry (by decide) (by decide), described.input]
  · rw [same.schemaEntry (by decide) (by decide), described.output]
  · rw [same "action" (by decide) (by decide) (by decide)]
    exact described.action

/-! ## Foretelling -/

/-- Whether the advice on a text says what becomes of a candidate with the text under a key: it is
accepted, as the spell given, or there is one complaint about it, at the key. -/
structure Foretells (advice : Option Advice) (key t : Text) (members : Members) (replaced : Spell) :
    Prop where
  accepted : advice = none ↔ ∃ s, check (.obj (Entries.put key (.str t) members)) = .valid s
  replaced : advice = none → check (.obj (Entries.put key (.str t) members)) = .valid replaced
  rejected : advice ≠ none → ∃ complaint,
    complaints (check (.obj (Entries.put key (.str t) members))) = [complaint] ∧
      complaint.path = key

/-- Advice foretells a check if there is advice just where there is a fault. -/
theorem foretells_of_fault {advice : Option Advice} {key : Text} {replaced : Spell}
    {fault? : Text → Option Fault} (same : fault? t = none ↔ advice = none)
    (accepts : fault? t = none →
      check (.obj (Entries.put key (.str t) members)) = .valid replaced)
    (complains : complaints (check (.obj (Entries.put key (.str t) members)))
      = ((fault? t).map fun fault => fault.at key).toList) :
    Foretells advice key t members replaced := by
  refine ⟨⟨fun silent => ⟨_, accepts (same.mpr silent)⟩, ?_⟩, fun silent => accepts (same.mpr silent),
    fun advised => ?_⟩
  · rintro ⟨s, valid⟩
    rw [valid, complaints_valid] at complains
    refine same.mp ?_
    cases fault : fault? t with
    | none => rfl
    | some _ => simp [fault] at complains
  · cases fault : fault? t with
    | none => exact absurd (same.mp fault) advised
    | some fault' => exact ⟨fault'.at key, by rw [complains, fault]; rfl, rfl⟩

/-- There is no advice on a text without surrogates as a name exactly if an accepted candidate stays
accepted when its name is replaced by the text, and then only the name of the spell is another one.
Otherwise there is one complaint, about the name. The same holds of descriptions. -/
theorem advice_foretells (accepted : check (.obj members) = .valid s)
    (encodable : t.isEncodable = true) :
    Foretells (adviseName t) "name" t members { s with name := t } ∧
      Foretells (adviseDescription t) "description" t members { s with description := t } := by
  have described : s.IsDescribed members := check_eq_valid_iff.mp accepted
  have nameFree : nameFault? s.name = none :=
    nameFault?_eq_none_iff.mpr ⟨described.nameWithin, described.nameCodePoints⟩
  have descriptionFree : descriptionFault? s.description = none :=
    lengthFault?_eq_none_iff.mpr described.descriptionWithin
  have put (key key' : Text) : Entries.find? key' (Entries.put key (.str t) members)
      = if key = key' then some (.str t) else Entries.find? key' members := Entries.find?_put ..
  have sameName := sameBeside_put (.inl rfl) (.str t) members
  have sameDescription := sameBeside_put (.inr rfl) (.str t) members
  constructor
  · have told : Entries.find? "description" (Entries.put "name" (.str t) members)
        = some (.str s.description) := by rw [put, if_neg (by decide), described.description]
    refine foretells_of_fault (nameFault?_eq_none_iff_advice encodable) (fun free => ?_) ?_
    · exact check_eq_valid_iff.mpr
        (sameName.describes described (by rw [put, if_pos rfl]) free told descriptionFree)
    · rw [sameName.complaints accepted, put, if_pos rfl, told]
      simp [ofNeeded, textFault?, descriptionFree]
  · have named : Entries.find? "name" (Entries.put "description" (.str t) members)
        = some (.str s.name) := by rw [put, if_neg (by decide), described.name]
    refine foretells_of_fault (descriptionFault?_eq_none_iff_advice encodable) (fun free => ?_) ?_
    · exact check_eq_valid_iff.mpr
        (sameDescription.describes described named nameFree (by rw [put, if_pos rfl]) free)
    · rw [sameDescription.complaints accepted, named, put, if_pos rfl]
      simp [ofNeeded, textFault?, nameFree]

/-- A line end behind a name is told of in advance, and complained about. -/
theorem advice_foretells_lineEnd :
    check (.obj looseMembers) = .valid loose ∧ Text.isEncodable "say-hello\n" = true ∧
      Foretells (adviseName "say-hello\n") "name" "say-hello\n" looseMembers
        { loose with name := "say-hello\n" } ∧
      ∃ complaint, complaints (check (.obj (Entries.put "name" (.str "say-hello\n") looseMembers)))
        = [complaint] ∧ complaint.path = "name" := by
  have accepted : check (.obj looseMembers) = .valid loose :=
    check_eq_valid_iff.mpr (isDescribed_loose loose.inputSchema)
  have foretells := (advice_foretells accepted (t := "say-hello\n") (by decide)).1
  exact ⟨accepted, by decide, foretells, foretells.rejected (by decide)⟩

end Grimoire.Spell
