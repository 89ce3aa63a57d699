import Grimoire.Proofs.Disk.Folders

/-!
# The way of a path

A path passes one route after the other. Where it leads, and what lies there, depends only on what lies
at the routes that it passes (`Disk.locate_congr`). So folders that are made for a path depend only on
its way (`Disk.makeFolders_congr`), and are all that is new (`Disk.madeAt_makeFolders`). Making them once
more changes nothing and comes to the same (`Disk.makeFolders_twice`).
-/

namespace Grimoire.Disk

variable {d e f : Disk} {here r : Route} {p : Path}

/-- The route that a path starts at. -/
def origin (here : Route) (p : Path) : Route := if p.anchor = .here then here else []

/-- Whether a path passes a route, or starts or ends there. -/
def Passes (here : Route) (p : Path) (r : Route) : Prop :=
  ∃ first, first <+: names p ∧ r = first.foldl follow (origin here p)

/-- Whether the same lies on two disks at the routes of a kind. -/
def Agree (on : Route → Prop) (d e : Disk) : Prop := ∀ r, on r → e.find? r = d.find? r

theorem Agree.mono {on on' : Route → Prop} (agree : Agree on d e) (less : ∀ r, on' r → on r) :
    Agree on' d e := fun r inside => agree r (less r inside)

theorem Agree.symm {on : Route → Prop} (agree : Agree on d e) : Agree on e d :=
  fun r inside => (agree r inside).symm

theorem Agree.trans {on : Route → Prop} (first : Agree on d e) (second : Agree on e f) :
    Agree on d f := fun r inside => (second r inside).trans (first r inside)

theorem passes_resolve (here : Route) (p : Path) : Passes here p (resolve here p) :=
  ⟨names p, List.prefix_rfl, rfl⟩

/-- A path passes what a path passes that it continues. -/
theorem Passes.mono {anchor : Anchor} {way more : List Text}
    (passes : Passes here ⟨anchor, way⟩ r) (le : way <+: more) : Passes here ⟨anchor, more⟩ r := by
  obtain ⟨first, before, rfl⟩ := passes
  exact ⟨first, before.trans (le.map Name.ofText), rfl⟩

/-- A path that does not go up passes only what lies above its end. -/
theorem Passes.above (down : ∀ name ∈ names p, name ≠ Name.up) {q : Route} (passes : Passes here p q) :
    q <+: resolve here p := by
  obtain ⟨first, before, rfl⟩ := passes
  rw [resolve_eq, foldl_follow fun name member => down name (before.subset member), foldl_follow down]
  exact (List.prefix_append_right_inj _).mpr before

/-! ## What a path depends on -/

theorem walk_congr {names : List Name} (same : ∀ first, first <+: names → first ≠ names →
    e.find? (first.foldl follow r) = d.find? (first.foldl follow r)) :
    walk e r names = walk d r names := by
  induction names generalizing r with
  | nil => rfl
  | cons name names ih =>
    have start : e.find? r = d.find? r := same [] List.nil_prefix (by simp)
    have rest : walk e (follow r name) names = walk d (follow r name) names :=
      ih fun first before away =>
        same (name :: first) (List.cons_prefix_cons.mpr ⟨rfl, before⟩) (by simpa using away)
    rw [walk, walk, start]
    by_cases up : name = Name.up
    · simp only [follow, if_pos up] at rest
      simp only [if_pos up, rest]
    · simp only [follow, if_neg up] at rest
      simp only [if_neg up, rest]

theorem locate_congr (agree : Agree (Passes here p) d e) :
    e.locate here p = d.locate here p := by
  have walks : walk e (if p.anchor = .here then here else []) (names p)
      = walk d (if p.anchor = .here then here else []) (names p) :=
    walk_congr fun first before _ => agree _ ⟨first, before, rfl⟩
  rw [locate, locate, walks]

theorem contentAt_congr (agree : Agree (Passes here p) d e) :
    e.contentAt here p = d.contentAt here p := by
  rw [contentAt, contentAt, locate_congr agree]
  cases located : d.locate here p with
  | error error => rfl
  | ok r =>
    dsimp only
    rw [locate_eq_resolve located, agree _ (passes_resolve here p)]

/-- What is passed on the way to something is there. -/
theorem find?_of_walk {names : List Name} {t q : Route} (walks : walk d r names = .ok t)
    (found : d.find? t ≠ none) {first : List Name} (before : first <+: names)
    (passed : q = first.foldl follow r) : d.find? q ≠ none := by
  subst passed
  induction names generalizing r first with
  | nil =>
    obtain rfl := Except.ok.inj walks
    rwa [List.prefix_nil.mp before]
  | cons name names ih =>
    obtain ⟨folder, -, rest⟩ := walk_cons_eq_ok.mp walks
    cases first with
    | nil => simp [folder]
    | cons own first =>
      obtain ⟨rfl, inside⟩ := List.cons_prefix_cons.mp before
      exact ih rest inside

/-- What is passed on the way to a file is there. -/
theorem find?_of_contentAt {content : Bytes} {q : Route} (read : d.contentAt here p = .ok content)
    (passes : Passes here p q) : d.find? q ≠ none := by
  obtain ⟨first, before, passed⟩ := passes
  unfold contentAt at read
  split at read
  · exact absurd read (by simp)
  · next t located =>
    refine find?_of_walk (locate_eq_ok.mp located).2.2 (fun none => ?_) before passed
    simp [none] at read

theorem hasFolder_congr (agree : Agree (Passes here p) d e) :
    e.hasFolder here p = d.hasFolder here p := by
  rw [hasFolder, hasFolder, locate_congr agree]
  cases located : d.locate here p with
  | error error => rfl
  | ok r =>
    dsimp only
    rw [locate_eq_resolve located, agree _ (passes_resolve here p)]

/-! ## Making folders for a path -/

theorem makeFolder_eq (d : Disk) (here : Route) (p : Path) : d.makeFolder here p
    = match d.locate here p with
      | .error error => .error error
      | .ok _ => match d.find? (resolve here p) with
        | some _ => .error ⟨.taken, p⟩
        | none => .ok (d.put (resolve here p) .folder) := by
  rw [makeFolder]
  cases located : d.locate here p with
  | error error => rfl
  | ok r =>
    obtain rfl := locate_eq_resolve located
    rfl

theorem eq_of_makeFolder (made : d.makeFolder here p = .ok e) :
    d.find? (resolve here p) = none ∧ e = d.put (resolve here p) .folder := by
  rw [makeFolder_eq] at made
  split at made
  · exact absurd made (by simp)
  · split at made
    · exact absurd made (by simp)
    · next free => exact ⟨free, (Except.ok.inj made).symm⟩

theorem makeFolder_congr (agree : Agree (Passes here p) d e) : e.makeFolder here p
    = (d.makeFolder here p).map fun _ => e.put (resolve here p) .folder := by
  rw [makeFolder_eq, makeFolder_eq, locate_congr agree, agree _ (passes_resolve here p)]
  cases d.locate here p with
  | error error => rfl
  | ok r => cases d.find? (resolve here p) <;> rfl

/-- Whether a route has what it had, or a folder that is new and lies where new folders may. -/
def MadeAt (may : Route → Prop) (d e : Disk) (q : Route) : Prop :=
  e.find? q = d.find? q ∨ d.find? q = none ∧ e.find? q = some .folder ∧ may q

theorem MadeAt.mono {may may' : Route → Prop} {q : Route} (made : MadeAt may d e q)
    (more : may q → may' q) : MadeAt may' d e q :=
  made.imp_right fun h => ⟨h.1, h.2.1, more h.2.2⟩

theorem MadeAt.trans {may : Route → Prop} {q : Route} (first : MadeAt may d e q)
    (second : MadeAt may e f q) : MadeAt may d f q := by
  rcases first with same | ⟨free, folder, inside⟩
  · rw [MadeAt, ← same]
    exact second
  · rcases second with same | ⟨free', -, -⟩
    · exact .inr ⟨free, same.trans folder, inside⟩
    · exact absurd (free'.symm.trans folder) (by simp)

/-- What was there is still there. -/
theorem MadeAt.kept {may : Route → Prop} {q : Route} {entry : Entry} (made : MadeAt may d e q)
    (found : d.find? q = some entry) : e.find? q = some entry := by
  rcases made with same | ⟨free, -, -⟩
  · exact same.trans found
  · exact absurd (free.symm.trans found) (by simp)

theorem madeAt_put {q : Route} (free : d.find? r = none) :
    MadeAt (· = r) d (d.put r .folder) q := by
  have root : r ≠ [] := by
    rintro rfl
    exact absurd free (by simp)
  rw [MadeAt, find?_put _ _ _ _ root]
  split
  · next same => exact .inr ⟨same ▸ free, rfl, same⟩
  · exact .inl rfl

/-- Making folders for a path makes at most folders on its way. -/
theorem madeAt_makeFolders (here : Route) (anchor : Anchor) (reversed : List Text) (q : Route) :
    MadeAt (Passes here ⟨anchor, reversed.reverse⟩) d (d.makeFolders here anchor reversed).2 q := by
  induction reversed generalizing d with
  | nil => exact .inl rfl
  | cons name above ih =>
    have one {d e : Disk} (made : d.makeFolder here ⟨anchor, (name :: above).reverse⟩ = .ok e) :
        MadeAt (Passes here ⟨anchor, (name :: above).reverse⟩) d e q := by
      obtain ⟨free, rfl⟩ := eq_of_makeFolder made
      exact (madeAt_put free).mono fun same => same ▸ passes_resolve here _
    have rest : MadeAt (Passes here ⟨anchor, (name :: above).reverse⟩) d
        (d.makeFolders here anchor above).2 q := ih.mono fun passes => passes.mono (by simp)
    unfold makeFolders
    dsimp only
    split
    · next made => exact one made
    · split
      · next result =>
        rw [result] at rest
        exact rest
      · next result =>
        rw [result] at rest
        split
        · next made => exact rest.trans (one made)
        · split <;> exact rest
    · split <;> exact .inl rfl

/-- Making the folders of a path makes at most folders on its way. -/
theorem madeAt_foldersOf (d : Disk) (here : Route) (p : Path) (q : Route) :
    MadeAt (Passes here p) d (d.makeFolders here p.anchor p.names.reverse).2 q := by
  have made := madeAt_makeFolders (d := d) here p.anchor p.names.reverse q
  rwa [List.reverse_reverse] at made

/-- What is made for a path, and whether it can be, depends on the way of the path only. -/
theorem makeFolders_congr {on : Route → Prop} {anchor : Anchor} {reversed : List Text}
    (agree : Agree on d e) (within : ∀ r, Passes here ⟨anchor, reversed.reverse⟩ r → on r) :
    (e.makeFolders here anchor reversed).1 = (d.makeFolders here anchor reversed).1 ∧
      Agree on (d.makeFolders here anchor reversed).2 (e.makeFolders here anchor reversed).2 := by
  induction reversed generalizing d e with
  | nil => exact ⟨rfl, agree⟩
  | cons name above ih =>
    -- Where one folder can be made on one disk it can be made on the other.
    have one {d e : Disk} (agree : Agree on d e) :
        (∃ error, d.makeFolder here ⟨anchor, (name :: above).reverse⟩ = .error error ∧
          e.makeFolder here ⟨anchor, (name :: above).reverse⟩ = .error error) ∨
        ∃ d' e', d.makeFolder here ⟨anchor, (name :: above).reverse⟩ = .ok d' ∧
          e.makeFolder here ⟨anchor, (name :: above).reverse⟩ = .ok e' ∧ Agree on d' e' := by
      rw [makeFolder_congr (agree.mono within)]
      cases made : d.makeFolder here ⟨anchor, (name :: above).reverse⟩ with
      | error error => exact .inl ⟨error, rfl, rfl⟩
      | ok d' =>
        obtain ⟨free, rfl⟩ := eq_of_makeFolder made
        refine .inr ⟨_, _, rfl, rfl, fun q inside => ?_⟩
        have root : resolve here ⟨anchor, (name :: above).reverse⟩ ≠ [] := by
          intro root
          rw [root] at free
          exact absurd free (by simp)
        rw [find?_put _ _ _ _ root, find?_put _ _ _ _ root, agree q inside]
    have folders {d e : Disk} (agree : Agree on d e) :
        e.hasFolder here ⟨anchor, (name :: above).reverse⟩
          = d.hasFolder here ⟨anchor, (name :: above).reverse⟩ := hasFolder_congr (agree.mono within)
    obtain ⟨outcome, rest⟩ := ih agree fun r passes => within r (passes.mono (by simp))
    unfold makeFolders
    dsimp only
    rcases one agree with ⟨⟨obstacle, path⟩, failed, failed'⟩ | ⟨d', e', made, made', agree'⟩
    · rw [failed, failed']
      cases obstacle
      case notFound =>
        dsimp only
        rcases result : d.makeFolders here anchor above with ⟨error | ⟨⟩, d₁⟩ <;>
          rcases result' : e.makeFolders here anchor above with ⟨error' | ⟨⟩, e₁⟩ <;>
          rw [result, result'] at outcome rest
        · exact ⟨outcome, rest⟩
        · exact absurd outcome (by simp)
        · exact absurd outcome (by simp)
        · dsimp only
          rcases one rest with ⟨error, failed, failed'⟩ | ⟨d', e', made, made', agree'⟩
          · rw [failed, failed', folders rest]
            dsimp only
            split <;> exact ⟨rfl, rest⟩
          · rw [made, made']
            exact ⟨rfl, agree'⟩
      all_goals
        dsimp only
        rw [folders agree]
        split <;> exact ⟨rfl, agree⟩
    · rw [made, made']
      exact ⟨rfl, agree'⟩

/-! ## Making folders twice -/

theorem walk_append (d : Disk) (r : Route) (names more : List Name) :
    walk d r (names ++ more) = (walk d r names).bind fun q => walk d q more := by
  induction names generalizing r with
  | nil => rfl
  | cons name names ih =>
    rw [List.cons_append, walk, walk]
    rcases d.find? r with _ | ⟨content⟩ | _
    · rfl
    · rfl
    · dsimp only
      by_cases up : name = Name.up
      · rw [if_pos up, if_pos up, ih]
      · by_cases long : 255 < name.length
        · simp only [if_neg up, if_pos long]
          rfl
        · simp only [if_neg up, if_neg long, ih]

/-- The conditions and the outcome of the last step of a walk. -/
theorem walk_concat_eq_ok {r t : Route} {names : List Name} {name : Name} :
    walk d r (names ++ [name]) = .ok t ↔ ∃ q, walk d r names = .ok q ∧
      d.find? q = some .folder ∧ (name = Name.up ∨ name.length ≤ 255) ∧ t = follow q name := by
  rw [walk_append]
  cases walk d r names with
  | error obstacle => simp [Except.bind]
  | ok q =>
    have last : walk d (follow q name) [] = .ok t ↔ t = follow q name := by
      rw [walk, Except.ok.injEq, eq_comm]
    rw [Except.bind, walk_cons_eq_ok, last]
    simp

theorem nameSize_append (t u : Text) : nameSize (t ++ u) = nameSize t + nameSize u := by
  simp [nameSize, Name.ofText_append]

/-- A path gets longer with each name. -/
theorem nameSize_text_concat {anchor : Anchor} {names : List Text} (nonempty : names ≠ [])
    (name : Text) :
    nameSize (Path.text ⟨anchor, names⟩) ≤ nameSize (Path.text ⟨anchor, names ++ [name]⟩) := by
  have written {ns : List Text} (nonempty : ns ≠ []) :
      Path.text ⟨anchor, ns⟩ = anchor.text ++ Text.join "/" ns := by
    cases ns with
    | nil => exact absurd rfl nonempty
    | cons n ns => cases anchor <;> rfl
  obtain ⟨first, names, rfl⟩ := List.exists_cons_of_ne_nil nonempty
  rw [written nonempty, written (by simp)]
  simp only [Text.join, List.cons_append, List.flatMap_append, nameSize_append]
  omega

/-- Where a path leads somewhere, the path without its last name leads to a folder. -/
theorem hasFolder_above {anchor : Anchor} {above : List Text} {name : Text}
    (located : d.locate here ⟨anchor, (name :: above).reverse⟩ = .ok r) (nonempty : above ≠ []) :
    d.hasFolder here ⟨anchor, above.reverse⟩ = true := by
  obtain ⟨accepted, short, walks⟩ := locate_eq_ok.mp located
  rw [List.reverse_cons] at accepted short walks
  rw [names, List.map_append, List.map_singleton] at walks
  obtain ⟨q, walks, folder, -⟩ := walk_concat_eq_ok.mp walks
  have accepted : refusal? ⟨anchor, above.reverse⟩ = none := by
    rw [refusal?_eq_none_iff, List.all_append, List.any_append, Bool.and_eq_true,
      Bool.or_eq_false_iff] at accepted
    exact refusal?_eq_none_iff.mpr ⟨accepted.1.1, accepted.2.1⟩
  have short : nameSize (Path.text ⟨anchor, above.reverse⟩) ≤ 4095 :=
    (nameSize_text_concat (by simpa using nonempty) name).trans short
  exact hasFolder_iff.mpr ⟨q, locate_eq_ok.mpr ⟨accepted, short, walks⟩, folder⟩

/-- Folders cannot be made where the last one cannot and making those above it changes nothing. -/
theorem makeFolders_of_error {anchor : Anchor} {above : List Text} {name : Text}
    {error : DiskError}
    (failed : d.makeFolder here ⟨anchor, (name :: above).reverse⟩ = .error error)
    (noFolder : d.hasFolder here ⟨anchor, (name :: above).reverse⟩ = false)
    (stays : error.obstacle = .notFound → (d.makeFolders here anchor above).2 = d) :
    ∃ error', d.makeFolders here anchor (name :: above) = (.error error', d) := by
  obtain ⟨obstacle, path⟩ := error
  unfold makeFolders
  simp only [failed, noFolder]
  cases obstacle
  case notFound =>
    have stays := stays rfl
    rcases result : d.makeFolders here anchor above with ⟨error | ⟨⟩, d'⟩ <;> rw [result] at stays
    · obtain rfl : d' = d := stays
      exact ⟨error, rfl⟩
    · obtain rfl : d' = d := stays
      exact ⟨_, by simp only [failed, noFolder]; rfl⟩
  all_goals exact ⟨_, rfl⟩

/-- What a failure to make folders leaves behind, another one leaves as it is. -/
theorem makeFolders_failed {anchor : Anchor} {reversed : List Text} {error : DiskError}
    (failed : d.makeFolders here anchor reversed = (.error error, e)) :
    ∃ error', e.makeFolders here anchor reversed = (.error error', e) := by
  induction reversed generalizing d e error with
  | nil => exact absurd failed (by simp [makeFolders])
  | cons name above ih =>
    have first := failed
    unfold makeFolders at failed
    dsimp only at failed
    split at failed
    · exact absurd failed (by simp)
    · split at failed
      · next result =>
        -- The folders above cannot be made, so the last one is not there and cannot be made.
        obtain ⟨-, same⟩ := Prod.mk.inj failed
        rw [same] at result
        obtain ⟨error', again⟩ := ih result
        have lost (r : Route) :
            e.locate here ⟨anchor, (name :: above).reverse⟩ ≠ .ok r := by
          intro located
          by_cases empty : above = []
          · subst empty
            exact absurd result (by simp [makeFolders])
          · rw [makeFolders_of_hasFolder fun _ => hasFolder_above located empty] at again
            exact absurd again (by simp)
        cases located : e.locate here ⟨anchor, (name :: above).reverse⟩ with
        | ok r => exact absurd located (lost r)
        | error error =>
          have failed : e.makeFolder here ⟨anchor, (name :: above).reverse⟩ = .error error := by
            rw [makeFolder, located]
          exact makeFolders_of_error failed (by rw [hasFolder, located]) fun _ => by rw [again]
      · next result =>
        split at failed
        · exact absurd failed (by simp)
        · next last =>
          split at failed
          · exact absurd failed (by simp)
          · next noFolder =>
            obtain ⟨-, rfl⟩ := Prod.mk.inj failed
            refine makeFolders_of_error last (by simpa using noFolder) fun _ => ?_
            have there := (adds_makeFolders (d := d) here anchor above).2
            rw [result] at there
            rw [makeFolders_of_hasFolder (there rfl)]
    · next obstacle other alone =>
      split at failed
      · exact absurd failed (by simp)
      · next noFolder =>
        obtain ⟨-, rfl⟩ := Prod.mk.inj failed
        exact ⟨_, first⟩

/-- Folders that were made are not made again, and where some could not be made they cannot be made
then. -/
theorem makeFolders_twice (here : Route) (anchor : Anchor) (reversed : List Text) :
    ((d.makeFolders here anchor reversed).2.makeFolders here anchor reversed).2
        = (d.makeFolders here anchor reversed).2 ∧
      (((d.makeFolders here anchor reversed).2.makeFolders here anchor reversed).1 = .ok () ↔
        (d.makeFolders here anchor reversed).1 = .ok ()) := by
  cases outcome : (d.makeFolders here anchor reversed).1 with
  | ok _ =>
    have there := (adds_makeFolders (d := d) here anchor reversed).2 outcome
    rw [makeFolders_of_hasFolder there]
    exact ⟨rfl, by simp⟩
  | error error =>
    obtain ⟨error', again⟩ := makeFolders_failed (Prod.ext outcome rfl)
    rw [again]
    exact ⟨rfl, by simp⟩

end Grimoire.Disk
