import Grimoire.Proofs.Book.Requests

/-!
# Names in a book

A spell that is added under another one's name takes that one's identifier (`Book.underId_cases`),
so a book in which every name names one spell stays such a book whatever a plan makes of it
(`Book.IsUnique.revises`).
-/

namespace Grimoire.Book

open Command

variable {book revised : Book} {name fresh key : Text} {force : Bool} {s old : Spell}

theorem named?_eq_none : book.named? name = none ↔ ∀ e ∈ book, e.2.name ≠ name := by
  simp [named?, Entries.values]

/-- The name of a candidate is also its name under another identifier. -/
theorem name_of_check_put {v : Json} {members : Members}
    (checked : Spell.check (.obj (Entries.put "id" v members)) = .valid s) :
    Entries.find? "name" members = some (.str s.name) := by
  have named := (Spell.fields_of_check checked).2
  rwa [Entries.find?_put, if_neg (by decide)] at named

/-- A candidate under its own identifier, or under a new one if it has none. -/
def underOwnId (fresh : Text) (members : Members) : Json :=
  .obj (if Entries.hasKey "id" members then members else Entries.put "id" (.str fresh) members)

theorem name_of_check_own {members : Members}
    (checked : Spell.check (underOwnId fresh members) = .valid s) :
    Entries.find? "name" members = some (.str s.name) := by
  unfold underOwnId at checked
  split at checked
  · exact (Spell.fields_of_check checked).2
  · exact name_of_check_put checked

theorem underId_named {members : Members} (named : Entries.find? "name" members = some (.str name))
    (found : book.named? name = some old) :
    underId fresh book true (.obj members) = .obj (Entries.put "id" (.str old.id) members) := by
  simp only [underId, named, Option.map_some, Option.getD_some, Json.describeBare, found]

theorem underId_unnamed {members : Members}
    (named : Entries.find? "name" members = some (.str name))
    (free : book.named? name = none ∨ force = false) :
    underId fresh book force (.obj members) = underOwnId fresh members := by
  simp only [underId, named, Option.map_some, Option.getD_some, Json.describeBare]
  rcases free with free | rfl
  · rw [free]
    rfl
  · cases book.named? name <;> rfl

/-- The identifier under which a candidate is added. -/
theorem underId_cases {candidate : Json}
    (checked : Spell.check (underId fresh book force candidate) = .valid s) :
    ∃ members, candidate = .obj members ∧
      ((∃ old, book.named? s.name = some old ∧ force = true ∧ s.id = old.id ∧
          Spell.check (.obj (Entries.put "id" (.str old.id) members)) = .valid s) ∨
        ((book.named? s.name = none ∨ force = false) ∧
          Spell.check (underOwnId fresh members) = .valid s)) := by
  cases candidate with
  | obj members =>
    refine ⟨members, rfl, ?_⟩
    simp only [underId] at checked
    cases found : book.named? (((Entries.find? "name" members).map Json.describeBare).getD []) with
    | none =>
      rw [found] at checked
      rw [name_of_check_own checked] at found
      exact .inr ⟨.inl found, checked⟩
    | some old =>
      rw [found] at checked
      cases force with
      | false => exact .inr ⟨.inr rfl, checked⟩
      | true =>
        obtain ⟨id, -⟩ := Spell.fields_of_check checked
        rw [Entries.find?_put, if_pos rfl] at id
        rw [name_of_check_put checked] at found
        have same : s.id = old.id := by simpa [eq_comm] using id
        exact .inl ⟨old, found, rfl, same, checked⟩
  | _ => exact absurd (Spell.isObject_of_check checked) (by simp [underId])

theorem clash?_eq_none : clash? s book = none ↔
    book.named? s.name = none ∧ s.id ∉ Entries.keys book := by
  rw [clash?]
  cases book.named? s.name with
  | some old => simp
  | none =>
    rw [← Entries.hasKey_iff]
    cases Entries.hasKey s.id book <;> simp

/-- What is not forced is added only under a name that no spell has. -/
theorem named?_of_unforced (free : book.named? s.name = none ∨ force = false)
    (unforced : force = true ∨ clash? s book = none) : book.named? s.name = none := by
  rcases free with free | rfl
  · exact free
  · exact (clash?_eq_none.mp (unforced.resolve_left (by simp))).1

/-- A spell may be taken out. -/
theorem IsLawful.erase (lawful : IsLawful book) (key : Text) :
    IsLawful (Entries.erase key book) := by
  have sub : (Entries.erase key book).Sublist book := List.filter_sublist
  exact ⟨fun e member => lawful.own e (sub.subset member), (sub.map _).nodup lawful.distinct,
    fun e member => lawful.checked e (sub.subset member)⟩

/-! ## One spell under each name -/

/-- Whether a book is lawful and every name in it names one spell. -/
structure IsUnique (book : Book) : Prop where
  lawful : IsLawful book
  names : ((Entries.values book).map Spell.name).Nodup

theorem isUnique_nil : IsUnique [] := ⟨isLawful_nil, List.nodup_nil⟩

theorem IsUnique.normal (unique : IsUnique book) : IsUnique (normal book) := by
  refine ⟨unique.lawful.normal, ?_⟩
  have names : (Entries.values (Book.normal book)).map Spell.name
      = (Entries.values book).map Spell.name := by
    simp [Book.normal, Entries.values, Function.comp_def, Spell.normal]
  rw [names]
  exact unique.names

/-- Every spell is the one that is found by its name. -/
theorem IsUnique.named (unique : IsUnique book) {e : Text × Spell} (member : e ∈ book) :
    book.named? e.2.name = some e.2 := by
  have value : e.2 ∈ Entries.values book := List.mem_map.mpr ⟨e, member, rfl⟩
  cases found : book.named? e.2.name with
  | none => exact absurd rfl (named?_eq_none.mp found e member)
  | some t =>
    have same : t.name = e.2.name := by simpa using List.find?_some found
    rw [List.inj_on_of_nodup_map unique.names (List.mem_of_find?_eq_some found) value same]

/-- A spell may be added if no other spell has its name. -/
theorem IsUnique.add (unique : IsUnique book) (checked : s.IsChecked)
    (free : ∀ e ∈ book, e.2.name = s.name → e.1 = s.id) : IsUnique (add s book) := by
  refine ⟨unique.lawful.add checked, ?_⟩
  have names := unique.names
  by_cases present : s.id ∈ Entries.keys book
  · obtain ⟨⟨id, old⟩, member, rfl⟩ := List.mem_map.mp present
    obtain ⟨front, back, rfl⟩ := List.append_of_mem member
    have keys := unique.lawful.distinct
    simp only [Entries.keys, Entries.values, List.map_append, List.map_cons, List.nodup_middle,
      List.nodup_cons, List.mem_append, not_or] at keys names
    rw [Book.add, Entries.put_append_cons keys.1.1]
    simp only [Entries.values, List.map_append, List.map_cons, List.nodup_middle, List.nodup_cons,
      List.mem_append, not_or]
    -- A spell with this name elsewhere would stand under this identifier a second time.
    have elsewhere : ∀ part : Book, (∀ e ∈ part, e ∈ front ++ (s.id, old) :: back) →
        s.id ∉ part.map Prod.fst → s.name ∉ (part.map Prod.snd).map Spell.name := by
      intro part within absent named
      obtain ⟨t, value, same⟩ := List.mem_map.mp named
      obtain ⟨e, inside, rfl⟩ := List.mem_map.mp value
      exact absent (List.mem_map.mpr ⟨e, inside, free e (within e inside) same⟩)
    exact ⟨⟨elsewhere front (fun e inside => List.mem_append_left _ inside) keys.1.1,
      elsewhere back (fun e inside => List.mem_append_right _ (List.mem_cons_of_mem _ inside))
        keys.1.2⟩, names.2⟩
  · rw [Book.add, Entries.put_of_notMem present]
    simp only [Entries.values, List.map_append, List.map_cons, List.map_nil, List.nodup_middle,
      List.append_nil, List.nodup_cons]
    refine ⟨fun named => ?_, names⟩
    obtain ⟨t, value, same⟩ := List.mem_map.mp named
    obtain ⟨e, inside, rfl⟩ := List.mem_map.mp value
    exact present (List.mem_map.mpr ⟨e, inside, free e inside same⟩)

theorem IsUnique.erase (unique : IsUnique book) (key : Text) : IsUnique (Entries.erase key book) :=
  ⟨unique.lawful.erase key, ((List.filter_sublist.map _).map _).nodup unique.names⟩

/-- Whether the spells that a plan may bring into a book are sound. -/
def Plan.IsSound : Plan → Prop
  | .create s => s.IsChecked
  | .add candidate _ => candidate.isProper = true
  | .remove _ => True

/-- What a request plans is sound, as nothing that it reads has a key twice. -/
theorem Request.Plans.isSound {request : Request} {plan : Plan} {env : Env} {t : State}
    (plans : request.Plans env t plan) : plan.IsSound := by
  cases request with
  | create arguments =>
    obtain ⟨new, checked, rfl⟩ := plans
    exact ⟨_, Json.isProper_put (Json.isProper_erase arguments.2 "id") "id" _, checked⟩
  | add source force =>
    obtain ⟨candidate, u, read, rfl⟩ := plans
    exact Source.isProper_of_read read
  | remove key =>
    obtain rfl := plans
    trivial

theorem isChecked_of_underId {candidate : Json} (proper : candidate.isProper = true)
    (checked : Spell.check (underId fresh book force candidate) = .valid s) : s.IsChecked := by
  obtain ⟨members, rfl, ⟨old, -, -, -, valid⟩ | ⟨-, valid⟩⟩ := underId_cases checked
  · exact ⟨_, Json.isProper_put proper "id" old.id, valid⟩
  · refine ⟨_, ?_, valid⟩
    unfold underOwnId
    split
    · exact proper
    · exact Json.isProper_put proper "id" fresh

/-- Whatever a plan makes of a lawful book is lawful. -/
theorem IsLawful.revises (lawful : IsLawful book) {plan : Plan} (sound : plan.IsSound)
    (revises : plan.Revises fresh book revised) : IsLawful revised := by
  cases plan with
  | create new =>
    obtain ⟨-, -, rfl⟩ := revises
    exact lawful.add sound
  | add candidate force =>
    obtain ⟨new, checked, -, rfl⟩ := revises
    exact lawful.add (isChecked_of_underId sound checked)
  | remove key =>
    obtain ⟨s, -, rfl⟩ := revises
    exact lawful.erase s.id

/-- Whatever a plan makes of a book in which every name names one spell is such a book. -/
theorem IsUnique.revises (unique : IsUnique book) {plan : Plan} (sound : plan.IsSound)
    (revises : plan.Revises fresh book revised) : IsUnique revised := by
  cases plan with
  | create new =>
    obtain ⟨free, -, rfl⟩ := revises
    exact unique.add sound fun e member same => absurd same (named?_eq_none.mp free e member)
  | add candidate force =>
    obtain ⟨new, checked, unforced, rfl⟩ := revises
    refine unique.add (isChecked_of_underId sound checked) fun e member same => ?_
    obtain ⟨members, -, ⟨old, found, -, id, -⟩ | ⟨free, -⟩⟩ := underId_cases checked
    · have named := unique.named member
      rw [same, found] at named
      rw [unique.lawful.own e member, id, Option.some.inj named]
    · exact absurd same (named?_eq_none.mp (named?_of_unforced free unforced) e member)
  | remove key =>
    obtain ⟨s, -, rfl⟩ := revises
    exact unique.erase s.id

end Grimoire.Book
