import Grimoire.Proofs.Command.Effect

/-!
# Spells that are generated side by side

Two spells with different names are generated into one folder. What one job owns is neither looked at nor
changed by the other, so a job decides and leaves the same whether it is done before the other or after it
(`Command.Job.alike_of_does`), and the order does not matter (`Command.Job.commute`).
-/

namespace Grimoire.Command

open Act Disk Grimoire.Bundle

variable {here : Route} {folder : Path} {d e : Disk} {q : Route}

namespace Job

variable {f g j : Job here folder} {done done' : Bool}

/-! ## Names -/

/-- Whether a route is one under which the bundle may be staged. -/
def Stages (j : Job here folder) (q : Route) : Prop :=
  ∃ n, q = numberedRoute (resolve here folder) ("." ++ Name.spelling j.new.name ++ "-") [] n

/-- Whether a job writes at a route, or may do so before the bundle gets to its place. -/
def Uses (j : Job here folder) (q : Route) : Prop := j.Owns q ∨ j.Stages q

/-- What stands before the first dot of the name of what a job owns is the name of its spell. -/
theorem Owns.front (stem : IsStem j.new.name) (own : j.Owns q) : ∃ name rest,
    q = resolve here folder ++ name :: rest ∧
      name.takeWhile (· ≠ 0x2E) = Name.ofText j.new.name := by
  have bare : ∀ b ∈ Name.ofText j.new.name, decide (b ≠ 0x2E) = true := fun b member => by
    refine decide_eq_true fun same => stem.dot ?_
    exact (Name.low_mem_ofText (by decide)).mp (same ▸ member)
  have ending {more : Text} (dot : (Name.ofText more).head? = some 0x2E) :
      (Name.ofText (j.new.name ++ more)).takeWhile (· ≠ 0x2E) = Name.ofText j.new.name := by
    obtain ⟨rest, starts⟩ := List.head?_eq_some_iff.mp dot
    rw [Name.ofText_append, starts, List.takeWhile_append_of_pos bare,
      List.takeWhile_cons_of_neg (by simp), List.append_nil]
  rcases own with ⟨rest, rfl⟩ | ⟨-, rfl | rfl⟩
  · exact ⟨Name.ofText j.new.name, rest, by simp [place, fileOf],
      List.takeWhile_eq_self_iff.mpr bare⟩
  · exact ⟨_, [], rfl, ending (by decide)⟩
  · exact ⟨_, [], rfl, ending (by decide)⟩

/-- Two jobs whose spells have different names own nothing together. -/
theorem Owns.other (stem : IsStem f.new.name) (stem' : IsStem g.new.name)
    (differ : Name.ofText f.new.name ≠ Name.ofText g.new.name) (own : f.Owns q) : ¬g.Owns q := by
  intro own'
  obtain ⟨name, rest, rfl, front⟩ := own.front stem
  obtain ⟨name', rest', same, front'⟩ := own'.front stem'
  obtain ⟨rfl, -⟩ := List.cons.inj (List.append_cancel_left same)
  exact differ (front.symm.trans front')

/-- The name of a folder beside starts with a dot. -/
theorem Stages.not_owns (stem : IsStem j.new.name) (stages : f.Stages q) : ¬j.Owns q := by
  intro own
  obtain ⟨n, rfl⟩ := stages
  obtain ⟨name, rest, same, front⟩ := own.front stem
  obtain ⟨rfl, -⟩ := List.cons.inj (List.append_cancel_left same)
  exact Name.ofText_ne_nil stem.nameable stem.nonempty front.symm

/-- Nothing that a job uses is on the way to the folder. -/
theorem Uses.not_above (uses : j.Uses q) : ¬q <+: resolve here folder := by
  rcases uses with own | ⟨n, rfl⟩
  · exact own.not_above
  · exact fun above => not_prefix_route above List.prefix_rfl

/-- Whether two jobs have spells with different names, and the way of the folder, if folders are made on
it for an archive, does not lead through what they use. -/
structure AreApart (f g : Job here folder) : Prop where
  stem : IsStem f.new.name
  stem' : IsStem g.new.name
  differ : Name.ofText f.new.name ≠ Name.ofText g.new.name
  clear : f.alsoArchive = true ∨ g.alsoArchive = true → ∀ q, Passes here folder q →
    ¬f.Uses q ∧ ¬g.Uses q

theorem AreApart.symm (apart : f.AreApart g) : g.AreApart f where
  stem := apart.stem'
  stem' := apart.stem
  differ := apart.differ.symm
  clear asked q passes := (apart.clear asked.symm q passes).symm

theorem AreApart.isClear (apart : f.AreApart g)
    (asked : f.alsoArchive = true ∨ g.alsoArchive = true) : f.IsClear :=
  fun q passes own => (apart.clear asked q passes).1 (.inl own)

/-! ## What a job looks at -/

/-- Whether two disks are alike in what a job looks at. -/
structure AreAlike (j : Job here folder) (d e : Disk) : Prop where
  above : ∀ q, q <+: resolve here folder → e.find? q = d.find? q
  own : ∀ q, j.Owns q → e.find? q = d.find? q
  staged : ∀ q, j.Stages q → e.find? q = d.find? q
  opened : j.alsoArchive = true → ∀ q, Passes here folder q ∨ j.Owns q →
    (opened e here folder).find? q = (opened d here folder).find? q
  made : j.alsoArchive = true →
    ((e.makeFolders here folder.anchor folder.names.reverse).1 = .ok () ↔
      (d.makeFolders here folder.anchor folder.names.reverse).1 = .ok ())

theorem AreAlike.places (alike : j.AreAlike d e) : j.Places e ↔ j.Places d := by
  have own := alike.own j.place (.inl List.prefix_rfl)
  have stage : CanStage e j.place (ofSpell j.new) ↔ CanStage d j.place (ofSpell j.new) :=
    canStage_congr alike.above own fun n => alike.staged _ ⟨n, rfl⟩
  constructor
  · exact fun places => ⟨own ▸ places.allowed, stage.mp places.stage⟩
  · exact fun places => ⟨own.symm ▸ places.allowed, stage.mpr places.stage⟩

theorem AreAlike.opens (alike : j.AreAlike d e) : j.Opens e ↔ j.Opens d :=
  and_congr_left' alike.places

theorem AreAlike.archives (alike : j.AreAlike d e) : j.Archives e ↔ j.Archives d := by
  by_cases asked : j.alsoArchive = true
  · have agree : Agree (Passes here (archivePath folder j.new.name)) (Bundle.opened d here folder)
        (Bundle.opened e here folder) := fun q passes => alike.opened asked q
      (((passes_child (append_ne_up _ (by decide))).mp passes).imp_right fun same =>
        .inr ⟨asked, .inl same⟩)
    have can : CanArchive e here folder j.new.name ↔ CanArchive d here folder j.new.name :=
      ⟨fun can => ⟨(alike.made asked).mp can.made, (isPlaceable_congr agree).mp can.archive⟩,
        fun can => ⟨(alike.made asked).mpr can.made, (isPlaceable_congr agree).mpr can.archive⟩⟩
    exact and_congr alike.opens can
  · exact ⟨fun archives => absurd archives.1.2 asked, fun archives => absurd archives.1.2 asked⟩

theorem AreAlike.digests (alike : j.AreAlike d e) : j.Digests e ↔ j.Digests d := by
  by_cases asked : j.alsoArchive = true
  · have agree : Agree (Passes here (digestPath folder j.new.name)) (Bundle.opened d here folder)
        (Bundle.opened e here folder) := fun q passes => alike.opened asked q
      (((passes_child (append_ne_up _ (by decide))).mp passes).imp_right fun same =>
        .inr ⟨asked, .inr same⟩)
    exact and_congr alike.archives (isPlaceable_congr agree)
  · exact ⟨fun digests => absurd digests.1.1.2 asked, fun digests => absurd digests.1.1.2 asked⟩

theorem AreAlike.finishes (alike : j.AreAlike d e) : j.Finishes e ↔ j.Finishes d :=
  and_congr alike.places (imp_congr_right fun _ => alike.digests)

/-- Folders that are filled with one bundle hold the same. -/
theorem find?_of_fills {bundle : Bundle} {r : Route} (first : Fills bundle r d)
    (second : Fills bundle r e) (below : r <+: q) : e.find? q = d.find? q := by
  have files {d e : Disk} (first : Fills bundle r d) (second : Fills bundle r e) {t : Route}
      (nonempty : t ≠ []) {entry : Entry} (found : d.find? (r ++ t) = some entry) :
      e.find? (r ++ t) = some entry := by
    obtain ⟨key, member, rfl⟩ := first.only t entry nonempty found
    obtain ⟨listed, inside, rfl⟩ := List.mem_map.mp member
    obtain ⟨bytes, encoded, file⟩ := first.files listed inside
    obtain ⟨bytes', encoded', file'⟩ := second.files listed inside
    rw [← fileOf] at found ⊢
    rw [file', ← found, file, Option.some.inj (encoded.symm.trans encoded')]
  obtain ⟨t, rfl⟩ := below
  by_cases itself : t = []
  · rw [itself, List.append_nil, first.folder, second.folder]
  · exact Option.ext fun entry => ⟨files second first itself, files first second itself⟩

/-- On disks that are alike, a job comes to the same and leaves the same where it owns. -/
theorem Does.congr {d' e' : Disk} (first : j.Does d done e) (second : j.Does d' done' e')
    (alike : j.AreAlike d d') : done' = done ∧ ∀ q, j.Owns q → e'.find? q = e.find? q := by
  classical
  constructor
  · rw [Bool.eq_iff_iff, first.done, second.done, alike.finishes]
  · rintro q (below | ⟨asked, rfl | rfl⟩)
    · by_cases places : j.Places d
      · exact find?_of_fills (first.filled places) (second.filled (alike.places.mpr places)) below
      · rw [first.unfilled places q below, second.unfilled (alike.places.not.mpr places) q below]
        exact alike.own q (.inl below)
    · rw [first.archive asked, second.archive asked, alike.own _ (.inr ⟨asked, .inl rfl⟩)]
      exact if_congr alike.archives rfl rfl
    · rw [first.digest asked, second.digest asked, alike.own _ (.inr ⟨asked, .inr rfl⟩)]
      exact if_congr alike.digests rfl rfl

/-! ## What a job leaves to another one -/

variable {c : Disk} {before : Bool}

/-- Folders that have been made for archives are not made again. -/
theorem opened_of_others {p : Prop} [Decidable p] {on : Route → Prop}
    (agree : ∀ q, on q → e.find? q = (if p then opened d here folder else d).find? q)
    (within : ∀ q, Passes here folder q → on q) :
    ((e.makeFolders here folder.anchor folder.names.reverse).1 = .ok () ↔
      (d.makeFolders here folder.anchor folder.names.reverse).1 = .ok ()) ∧
    Agree on (opened d here folder) (opened e here folder) := by
  split at agree
  · obtain ⟨outcome, agree'⟩ := opened_congr agree within
    obtain ⟨again, made⟩ := makeFolders_twice (d := d) here folder.anchor folder.names.reverse
    rw [outcome, opened, made]
    rw [opened, opened, again] at agree'
    exact ⟨Iff.rfl, agree'⟩
  · obtain ⟨outcome, agree'⟩ := opened_congr agree within
    exact ⟨by rw [outcome], agree'⟩

/-- What one job leaves is for another one as if the first job had not been done. -/
theorem alike_of_does (apart : f.AreApart g) (isOpen : d.IsOpen (resolve here folder))
    (does : g.Does d done e) : f.AreAlike d e := by
  classical
  have way (q : Route) (above : q <+: resolve here folder) : d.find? q = some .folder := by
    by_cases itself : q = resolve here folder
    · exact itself ▸ isOpen.folder
    · exact isOpen.way.above q above itself
  have kept {q : Route} (other : ¬g.Owns q) (off : g.alsoArchive = true → ¬Passes here folder q) :
      e.find? q = d.find? q := by
    rw [does.others q other]
    split
    · next opens => exact find?_opened (off opens.2)
    · rfl
  have clear (asked : f.alsoArchive = true) : g.IsClear := apart.symm.isClear (.inr asked)
  have folders (asked : f.alsoArchive = true) := opened_of_others does.others (clear asked)
  exact {
    above q above := by
      rw [does.others q fun own => own.not_above above]
      split
      · rw [(madeAt_opened d here folder q).kept (way q above), way q above]
      · rfl
    own q own := kept (own.other apart.stem apart.stem' apart.differ) fun asked passes =>
      (apart.clear (.inr asked) q passes).1 (.inl own)
    staged q stages := kept (stages.not_owns apart.stem') fun asked passes =>
      (apart.clear (.inr asked) q passes).1 (.inr stages)
    opened asked q inside := (folders asked).2 q (inside.elim (clear asked q)
      (fun own => own.other apart.stem apart.stem' apart.differ))
    made asked := (folders asked).1 }

open Classical in
/-- What no job owns is left by two jobs as it was, but for the folders that are made if one of them opens
the way. -/
theorem find?_of_does_twice (apart : f.AreApart g) (isOpen : d.IsOpen (resolve here folder))
    (first : f.Does d before c) (second : g.Does c done e) (other : ¬f.Owns q) (other' : ¬g.Owns q) :
    e.find? q = (if f.Opens d ∨ g.Opens d then opened d here folder else d).find? q := by
  have opens := (alike_of_does apart.symm isOpen first).opens
  rw [second.others q other', if_congr opens rfl rfl]
  by_cases asks : g.Opens d
  · rw [if_pos asks, if_pos (.inr asks)]
    exact (opened_of_others first.others (apart.isClear (.inr asks.2))).2 q other
  · rw [if_neg asks, first.others q other, if_congr (or_iff_left asks).symm rfl rfl]

/-- Two jobs come to the same, and leave the same, in either order. -/
theorem commute_of_isOpen {c' e' : Disk} {done₁ done₂ done₁' done₂' : Bool} (apart : f.AreApart g)
    (isOpen : d.IsOpen (resolve here folder)) (first : f.Does d done₁ c) (second : g.Does c done₂ e)
    (first' : g.Does d done₂' c') (second' : f.Does c' done₁' e') :
    done₁' = done₁ ∧ done₂' = done₂ ∧ Same e e' := by
  classical
  have alike := alike_of_does apart isOpen first'
  have alike' := alike_of_does apart.symm isOpen first
  have own := first.congr second' alike
  have own' := first'.congr second alike'
  refine ⟨own.1, own'.1.symm, fun q => ?_⟩
  by_cases mine : f.Owns q
  · rw [own.2 q mine]
    exact ((alike_of_does apart (isOpen.congr alike'.above) second).own q mine).symm
  · by_cases yours : g.Owns q
    · rw [own'.2 q yours]
      exact (alike_of_does apart.symm (isOpen.congr alike.above) second').own q yours
    · rw [find?_of_does_twice apart isOpen first second mine yours,
        find?_of_does_twice apart.symm isOpen first' second' yours mine]
      exact congrArg (Disk.find? · q) (if_congr or_comm rfl rfl)

/-! ## Either order -/

/-- A job that cannot begin does nothing. -/
theorem eq_of_leaves (cannot : ¬CanBegin j.marks j.new here folder) (leaves : j.Leaves d done e) :
    done = false ∧ e = d := by
  cases leaves with
  | refused _ => exact ⟨rfl, rfl⟩
  | unplaced can => exact absurd can cannot
  | placed can => exact absurd can cannot

/-- Where the folder cannot be made, nothing is done. -/
theorem same_of_leaves (begins : CanBegin j.marks j.new here folder)
    (lost : (d.makeFolders here .root (pathOf (resolve here folder)).names.reverse).1 ≠ .ok ())
    (leaves : j.Leaves d done e) :
    done = false ∧ (d.grounded here (resolve here folder)).Same e := by
  cases leaves with
  | refused cannot => exact absurd begins cannot
  | unplaced can cannot same => exact ⟨rfl, same⟩
  | placed can canPlace placed archives => exact absurd canPlace.ground lost

/-- The folder is not made again, and if it could not be made it cannot be made then. -/
theorem grounded_twice {r : Route} (same : (d.grounded here r).Same e) :
    ((e.makeFolders here .root (pathOf r).names.reverse).1 = .ok () ↔
      (d.makeFolders here .root (pathOf r).names.reverse).1 = .ok ()) ∧
    (d.grounded here r).Same (e.grounded here r) := by
  obtain ⟨again, made⟩ := makeFolders_twice (d := d) here .root (pathOf r).names.reverse
  have everywhere : Agree (fun _ => True)
      (d.makeFolders here .root (pathOf r).names.reverse).2 e := fun q _ => same q
  have within (q : Route) (_ : Passes here ⟨.root, (pathOf r).names.reverse.reverse⟩ q) : True :=
    trivial
  obtain ⟨outcome, agree⟩ := makeFolders_congr everywhere within
  rw [outcome, made]
  rw [again] at agree
  exact ⟨Iff.rfl, fun q => agree q trivial⟩

/-- Two jobs that can begin come to the same, and leave the same, in either order. -/
theorem commute {c' e' : Disk} {done₁ done₂ done₁' done₂' : Bool} (apart : f.AreApart g)
    (plain : IsPlain here) (named : ∀ name ∈ folder.names, name ≠ [])
    (begins : CanBegin f.marks f.new here folder) (begins' : CanBegin g.marks g.new here folder)
    (first : f.Leaves d done₁ c) (second : g.Leaves c done₂ e)
    (first' : g.Leaves d done₂' c') (second' : f.Leaves c' done₁' e') :
    done₁' = done₁ ∧ done₂' = done₂ ∧ Same e e' := by
  have down := (begins.isPlain plain named).down
  have clear (asked : f.alsoArchive = true) : f.IsClear := apart.isClear (.inl asked)
  have clear' (asked : g.alsoArchive = true) : g.IsClear := apart.symm.isClear (.inl asked)
  by_cases ground : (d.makeFolders here .root (pathOf (resolve here folder)).names.reverse).1 = .ok ()
  · have isOpen := isOpen_grounded down ground
    have does := does_of_leaves clear begins ground first
    have does' := does_of_leaves clear' begins' ground first'
    -- Each job leaves the folder open, so the other one finds it.
    have opens :
        (c.makeFolders here .root (pathOf (resolve here folder)).names.reverse) = (.ok (), c) :=
      makeFolders_of_isOpen down (isOpen.congr (alike_of_does apart.symm isOpen does).above) here
    have opens' :
        (c'.makeFolders here .root (pathOf (resolve here folder)).names.reverse) = (.ok (), c') :=
      makeFolders_of_isOpen down (isOpen.congr (alike_of_does apart isOpen does').above) here
    have next := does_of_leaves clear' begins' (by rw [opens]) second
    have next' := does_of_leaves clear begins (by rw [opens']) second'
    rw [grounded, opens] at next
    rw [grounded, opens'] at next'
    exact commute_of_isOpen apart isOpen does next does' next'
  · obtain ⟨rfl, same⟩ := same_of_leaves begins ground first
    obtain ⟨rfl, same'⟩ := same_of_leaves begins' ground first'
    obtain ⟨made, again⟩ := grounded_twice same
    obtain ⟨made', again'⟩ := grounded_twice same'
    obtain ⟨rfl, same₂⟩ := same_of_leaves begins' (made.not.mpr ground) second
    obtain ⟨rfl, same₂'⟩ := same_of_leaves begins (made'.not.mpr ground) second'
    refine ⟨rfl, rfl, fun q => ?_⟩
    rw [same₂, same₂', again, again']

end Job

end Grimoire.Command
