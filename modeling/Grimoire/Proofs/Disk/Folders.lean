import Grimoire.Proofs.Disk.Steps

/-!
# Folders and what lies in them

A route from the root is reached exactly where only folders lie above it and its names are short
enough (`Disk.locate_pathOf`). Making folders adds at most folders on the way to the last one
(`Disk.keptAt_makeFolders`). A folder that gets a new route takes along all that lies in it, and
nothing else changes (`Disk.find?_replace_folder`).
-/

namespace Grimoire.Disk

variable {d e f : Disk} {here : Route}

/-! ## Routes from the root -/

/-- Whether every name is one that can stand in a route. -/
def IsPlain (r : Route) : Prop := ∀ name ∈ r, name ≠ [] ∧ name ≠ Name.up ∧ 0 ∉ name

/-- Whether a route is reached from the root. -/
structure Reaches (d : Disk) (r : Route) : Prop where
  nul : r.any (·.contains 0) = false
  short : nameSize (pathOf r).text ≤ 4095
  brief : ∀ name ∈ r, name.length ≤ 255
  above : ∀ q, q <+: r → q ≠ r → d.find? q = some .folder

theorem foldl_follow {r names : Route} (down : ∀ name ∈ names, name ≠ Name.up) :
    names.foldl follow r = r ++ names := by
  induction names generalizing r with
  | nil => exact (List.append_nil r).symm
  | cons name names ih =>
    rw [List.forall_mem_cons] at down
    rw [List.foldl_cons, ih down.2, follow, if_neg down.1, List.append_assoc]
    rfl

/-- A walk along names that do not go up passes all that lies above its end. -/
theorem walk_eq_ok {r t : Route} {names : List Name} (down : ∀ name ∈ names, name ≠ Name.up) :
    walk d r names = .ok t ↔ (∀ name ∈ names, name.length ≤ 255) ∧
      (∀ q, q <+: names → q ≠ names → d.find? (r ++ q) = some .folder) ∧ t = r ++ names := by
  induction names generalizing r with
  | nil => simp [walk, eq_comm]
  | cons name names ih =>
    rw [List.forall_mem_cons] at down
    have behind : follow r name = r ++ [name] := if_neg down.1
    rw [walk_cons_eq_ok, behind, ih down.2, List.forall_mem_cons]
    constructor
    · rintro ⟨folder, brief, briefs, above, rfl⟩
      refine ⟨⟨brief.resolve_left down.1, briefs⟩, fun q below away => ?_, by simp⟩
      cases q with
      | nil => rwa [List.append_nil]
      | cons first q =>
        obtain ⟨rfl, inside⟩ := List.cons_prefix_cons.mp below
        simpa using above q inside (by simpa using away)
    · rintro ⟨⟨brief, briefs⟩, above, rfl⟩
      refine ⟨?_, .inr brief, briefs, fun q below away => ?_, by simp⟩
      · simpa using above [] (List.nil_prefix) (by simp)
      · have passed := above (name :: q) (List.cons_prefix_cons.mpr ⟨rfl, below⟩)
          (by simpa using away)
        rwa [List.append_cons] at passed

theorem locate_pathOf {r t : Route} (down : ∀ name ∈ r, name ≠ Name.up) :
    d.locate here (pathOf r) = .ok t ↔ d.Reaches r ∧ t = r := by
  have start : (if (pathOf r).anchor = .here then here else []) = [] := if_neg (by simp [pathOf])
  rw [locate_eq_ok, start, names_pathOf, walk_eq_ok down, refusal?_pathOf_eq_none_iff]
  constructor
  · rintro ⟨nul, short, brief, above, rfl⟩
    exact ⟨⟨nul, short, brief, above⟩, rfl⟩
  · rintro ⟨⟨nul, short, brief, above⟩, rfl⟩
    exact ⟨nul, short, brief, above, rfl⟩

theorem Reaches.mono {r : Route} (reaches : d.Reaches r)
    (folders : ∀ q, q <+: r → q ≠ r → d.find? q = some .folder → e.find? q = some .folder) :
    e.Reaches r :=
  ⟨reaches.nul, reaches.short, reaches.brief, fun q below away =>
    folders q below away (reaches.above q below away)⟩

theorem IsPlain.down {r : Route} (plain : IsPlain r) : ∀ name ∈ r, name ≠ Name.up :=
  fun name member => (plain name member).2.1

theorem IsPlain.nul {r : Route} (plain : IsPlain r) :
    r.any (·.contains 0) = false := by
  rw [List.any_eq_false]
  intro name member
  simpa using (plain name member).2.2

/-- Where the way is there, a walk fails only at a name that is too long. -/
theorem tooLong_of_walk {r : Route} {names : List Name} {obstacle : Obstacle}
    (down : ∀ name ∈ names, name ≠ Name.up)
    (above : ∀ q, q <+: names → q ≠ names → d.find? (r ++ q) = some .folder)
    (h : walk d r names = .error obstacle) : obstacle = .tooLong := by
  induction names generalizing r with
  | nil => exact absurd h (by simp [walk])
  | cons name names ih =>
    rw [List.forall_mem_cons] at down
    have folder : d.find? r = some .folder := by
      simpa using above [] (List.nil_prefix) (by simp)
    simp only [walk, folder, if_neg down.1] at h
    split at h
    · exact (Except.error.inj h).symm
    · refine ih down.2 (fun q below away => ?_) h
      have passed := above (name :: q) (List.cons_prefix_cons.mpr ⟨rfl, below⟩)
        (by simpa using away)
      rwa [List.append_cons] at passed

/-- On a tree, what is there is out of reach only if the way is too long. -/
theorem tooLong_of_locate (tree : d.IsTree) {r : Route} (plain : IsPlain r) {entry : Entry}
    (found : d.find? r = some entry) {error : DiskError}
    (h : d.locate here (pathOf r) = .error error) : error.obstacle = .tooLong := by
  have accepted : refusal? (pathOf r) = none := refusal?_pathOf_eq_none_iff.mpr plain.nul
  simp only [locate, accepted, names_pathOf] at h
  split at h
  · exact (Except.error.inj h) ▸ rfl
  · split at h
    · exact absurd h (by simp)
    · next obstacle walked =>
      obtain rfl := Except.error.inj h
      refine tooLong_of_walk plain.down (fun q below away => ?_) walked
      exact tree.above_prefix below away found

/-- On a tree, the question whether something lies at a route is answered unless the way is too
long. -/
theorem has_eq_ok (tree : d.IsTree) {r : Route} (plain : IsPlain r) {taken : Bool}
    (h : d.has here (pathOf r) = .ok taken) :
    taken = (d.find? r).isSome ∧ (taken = true → d.Reaches r) := by
  unfold has at h
  split at h
  · next t located =>
    obtain ⟨reaches, rfl⟩ := (locate_pathOf plain.down).mp located
    exact ⟨(Except.ok.inj h).symm, fun _ => reaches⟩
  · exact absurd h (by simp)
  · next error notLong located =>
    obtain rfl := Except.ok.inj h
    refine ⟨?_, fun yes => absurd yes (by simp)⟩
    cases found : d.find? r with
    | none => rfl
    | some entry =>
      have long := tooLong_of_locate tree plain found located
      exact absurd (show error = ⟨.tooLong, error.path⟩ from long ▸ rfl) (notLong _)

/-- What lies in a folder that is reached is reached if its name is not too long. -/
theorem reaches_concat {r : Route} {name : Name} (way : d.Reaches r)
    (folder : d.find? r = some .folder) :
    d.Reaches (r ++ [name]) ↔ 0 ∉ name ∧ name.length ≤ 255 ∧
      nameSize (pathOf (r ++ [name])).text ≤ 4095 := by
  constructor
  · rintro ⟨nul, short, brief, -⟩
    rw [List.any_append, Bool.or_eq_false_iff] at nul
    exact ⟨by simpa using nul.2, brief name (by simp), short⟩
  · rintro ⟨nul, brief, short⟩
    refine ⟨?_, short, ?_, fun q below away => ?_⟩
    · rw [List.any_append, way.nul]
      simpa using nul
    · simpa [or_imp, forall_and] using ⟨way.brief, brief⟩
    · rcases List.prefix_concat_iff.mp below with same | below
      · exact absurd same away
      · by_cases itself : q = r
        · rw [itself, folder]
        · exact way.above q below itself

/-! ## Adding folders above a route -/

/-- Whether a route has what it had, or a folder that has been made on the way to another route. -/
def KeptAt (r : Route) (d e : Disk) (q : Route) : Prop :=
  e.find? q = d.find? q ∨ d.find? q = none ∧ e.find? q = some .folder ∧ q <+: r

theorem KeptAt.mono {r s q : Route} (kept : KeptAt r d e q) (below : r <+: s) : KeptAt s d e q := by
  rcases kept with same | ⟨free, folder, above⟩
  · exact .inl same
  · exact .inr ⟨free, folder, above.trans below⟩

theorem KeptAt.trans {r q : Route} (first : KeptAt r d e q) (second : KeptAt r e f q) :
    KeptAt r d f q := by
  rcases first with same | ⟨free, folder, above⟩
  · rw [KeptAt, ← same]
    exact second
  · rcases second with same | ⟨free', -, -⟩
    · exact .inr ⟨free, same.trans folder, above⟩
    · exact absurd (free'.symm.trans folder) (by simp)

theorem makeFolder_eq_ok (here : Route) {r : Route} (down : ∀ name ∈ r, name ≠ Name.up) :
    d.makeFolder here (pathOf r) = .ok e ↔
      d.Reaches r ∧ d.find? r = none ∧ e = d.put r .folder := by
  unfold makeFolder
  constructor
  · intro h
    split at h
    · exact absurd h (by simp)
    · next t located =>
      obtain ⟨reaches, rfl⟩ := (locate_pathOf down).mp located
      split at h
      · exact absurd h (by simp)
      · next free => exact ⟨reaches, free, (Except.ok.inj h).symm⟩
  · rintro ⟨reaches, free, rfl⟩
    have located : d.locate here (pathOf r) = .ok r := (locate_pathOf down).mpr ⟨reaches, rfl⟩
    simp only [located, free]

theorem keptAt_makeFolder {r : Route} (down : ∀ name ∈ r, name ≠ Name.up)
    (h : d.makeFolder here (pathOf r) = .ok e) (q : Route) : KeptAt r d e q := by
  obtain ⟨-, free, rfl⟩ := (makeFolder_eq_ok here down).mp h
  have root : r ≠ [] := by
    rintro rfl
    exact absurd free (by simp)
  rw [KeptAt, find?_put _ _ _ _ root]
  split
  · next same => exact .inr ⟨same ▸ free, rfl, same ▸ List.prefix_rfl⟩
  · exact .inl rfl

/-- Making folders adds at most folders on the way to the last one. -/
theorem keptAt_makeFolders (here : Route) {reversed : List Name}
    (down : ∀ name ∈ reversed, name ≠ Name.up) (q : Route) :
    KeptAt reversed.reverse d (d.makeFolders here .root (reversed.map Name.text)).2 q := by
  induction reversed generalizing d with
  | nil => exact .inl rfl
  | cons name above ih =>
    have down' : ∀ n ∈ (name :: above).reverse, n ≠ Name.up := by simpa [or_comm] using down
    have whole : (⟨.root, (Name.text name :: above.map Name.text).reverse⟩ : Path)
        = pathOf (name :: above).reverse := by
      rw [pathOf, List.map_reverse, List.map_cons]
    have folder {d e : Disk} (made : d.makeFolder here
        ⟨.root, (Name.text name :: above.map Name.text).reverse⟩ = .ok e) :
        KeptAt (name :: above).reverse d e q := keptAt_makeFolder down' (whole ▸ made) q
    have rest : KeptAt (name :: above).reverse d
        (d.makeFolders here .root (above.map Name.text)).2 q :=
      (ih (List.forall_mem_cons.mp down).2).mono (by simp)
    rw [List.map_cons]
    unfold makeFolders
    dsimp only
    split
    · next made => exact folder made
    · split
      · next result =>
        rw [result] at rest
        exact rest
      · next result =>
        rw [result] at rest
        split
        · next made => exact rest.trans (folder made)
        · split <;> exact rest
    · split <;> exact .inl rfl

/-- The same for the folders of a route. -/
theorem keptAt_foldersOf (here : Route) {r : Route} (down : ∀ name ∈ r, name ≠ Name.up) (q : Route) :
    KeptAt r d (d.makeFolders here .root (pathOf r).names.reverse).2 q := by
  have kept : KeptAt r.reverse.reverse d
      (d.makeFolders here .root (r.reverse.map Name.text)).2 q :=
    keptAt_makeFolders here (fun name member => down name (List.mem_reverse.mp member)) q
  rwa [List.reverse_reverse, List.map_reverse] at kept

/-! ## Folders that get another route -/

/-- Nothing lies below two routes of the same length. -/
theorem not_prefix_of_length {r s q : Route} (length : r.length = s.length) (other : r ≠ s)
    (below : r <+: q) : ¬s <+: q := fun below' =>
  other ((List.prefix_of_prefix_length_le below below' length.le).eq_of_length length)

/-- A route does not lie below itself. -/
theorem not_prefix_dropLast {r : Route} (root : r ≠ []) : ¬r <+: r.dropLast := fun below =>
  dropLast_ne_self root (below.eq_of_length_le (List.dropLast_prefix r).length_le).symm

/-- What is put in its place has reached it. -/
theorem reaches_of_replace {source target : Route} (down : ∀ name ∈ target, name ≠ Name.up)
    (h : d.replace here source (pathOf target) = .ok e) : d.Reaches target := by
  cases located : d.locate here (pathOf target) with
  | error error => simp [replace, located] at h
  | ok t => exact ((locate_pathOf down).mp located).1

/-- A folder that is put in the place of what lies at a route of the same length takes along all
that lies in it. -/
theorem find?_replace_folder {source target : Route} (down : ∀ name ∈ target, name ≠ Name.up)
    (length : source.length = target.length) (other : source ≠ target) (root : target ≠ [])
    (h : d.replace here source (pathOf target) = .ok e) (q : Route) :
    e.find? q = if target <+: q then d.find? (source ++ q.drop target.length)
      else if source <+: q then none else d.find? q := by
  have root' : source ≠ [] := by
    rintro rfl
    exact root (List.length_eq_zero_iff.mp length.symm)
  have located : d.locate here (pathOf target) = .ok target :=
    (locate_pathOf down).mpr ⟨reaches_of_replace down h, rfl⟩
  have away (t : Route) : ¬target.isPrefixOf (source ++ t) = true := fun below =>
    not_prefix_of_length length other (List.prefix_append source t)
      (List.isPrefixOf_iff_prefix.mp below)
  rw [eq_of_replace located h, find?_move root' root fun _ => not_prefix_of_mem_removeTree,
    find?_removeTree _ _ _ root, if_neg (away _), find?_removeTree _ _ _ root]
  split
  · rfl
  · next outside =>
    rw [if_neg fun below => outside (List.isPrefixOf_iff_prefix.mp below)]

/-- A folder can be put where nothing lies. -/
theorem replace_folder (here : Route) {source target : Route} (plain : IsPlain target)
    (root : target ≠ []) (reaches : d.Reaches target) (folder : d.find? source = some .folder)
    (free : d.find? target = none) : ∃ e, d.replace here source (pathOf target) = .ok e := by
  have located : d.locate here (pathOf target) = .ok target :=
    (locate_pathOf plain.down).mpr ⟨reaches, rfl⟩
  have named : endsInName (pathOf target) = true := by
    have last := plain _ (List.getLast_mem root)
    have name : (pathOf target).name = Name.text (target.getLast root) := by
      simp [Path.name, pathOf, List.getLast?_eq_some_getLast root]
    rw [endsInName, name, Bool.and_eq_true, decide_eq_true_eq, decide_eq_true_eq]
    exact ⟨Name.text_ne_nil last.1, Name.text_ne_up last.2.1⟩
  refine ⟨(d.removeTree target).move source target, ?_⟩
  simp [replace, located, named, folder, free]

end Grimoire.Disk
