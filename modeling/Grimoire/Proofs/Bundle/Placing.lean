import Grimoire.Proofs.Bundle.Writing
import Grimoire.Proofs.Disk.Passing

/-!
# A bundle in a folder

A bundle that is written under a name into a folder needs the folder, which is made with all that is
missing above it (`Disk.grounded`). Then the bundle is put in its place or not. So what is on the disk
afterwards is known at every route, whether the writing fails or not (`Bundle.run_placed`).
-/

namespace Grimoire

namespace Disk

variable {d e : Disk} {here r : Route} {name : Name}

/-- Whether a folder is there and reached. -/
structure IsOpen (d : Disk) (r : Route) : Prop where
  way : d.Reaches r
  folder : d.find? r = some .folder

theorem IsOpen.congr (isOpen : d.IsOpen r) (same : ∀ q, q <+: r → e.find? q = d.find? q) :
    e.IsOpen r :=
  ⟨isOpen.way.mono fun q above _ folder => (same q above).trans folder,
    (same r List.prefix_rfl).trans isOpen.folder⟩

theorem isOpen_nil (d : Disk) : d.IsOpen [] :=
  ⟨⟨rfl, by decide, by simp, fun q below away => absurd (List.prefix_nil.mp below) away⟩, rfl⟩

/-- The disk after a folder has been made at a route, with all that was missing above it. -/
def grounded (d : Disk) (here r : Route) : Disk :=
  (d.makeFolders here .root (pathOf r).names.reverse).2

theorem isOpen_grounded (down : ∀ name ∈ r, name ≠ Name.up)
    (made : (d.makeFolders here .root (pathOf r).names.reverse).1 = .ok ()) :
    (d.grounded here r).IsOpen r := by
  by_cases root : r = []
  · subst root
    exact isOpen_nil _
  · have folder := (adds_makeFolders (d := d) here .root (pathOf r).names.reverse).2 made
      (by simpa [pathOf] using root)
    obtain ⟨t, located, found⟩ := hasFolder_iff.mp folder
    rw [List.reverse_reverse] at located
    obtain ⟨reaches, rfl⟩ := (locate_pathOf down).mp located
    exact ⟨reaches, found⟩

/-- A folder that is open is not made again. -/
theorem makeFolders_of_isOpen (down : ∀ name ∈ r, name ≠ Name.up) (isOpen : d.IsOpen r)
    (here : Route) : d.makeFolders here .root (pathOf r).names.reverse = (.ok (), d) := by
  refine makeFolders_of_hasFolder fun _ => hasFolder_iff.mpr ⟨r, ?_, isOpen.folder⟩
  rw [List.reverse_reverse]
  exact (locate_pathOf down).mpr ⟨isOpen.way, rfl⟩

theorem find?_grounded (down : ∀ name ∈ r, name ≠ Name.up) {q : Route} (outside : ¬q <+: r) :
    (d.grounded here r).find? q = d.find? q := by
  have kept : KeptAt r d (d.grounded here r) q := keptAt_foldersOf here down q
  rcases kept with same | ⟨-, -, above⟩
  · exact same
  · exact absurd above outside

theorem short_above (short : nameSize (pathOf (r ++ [name])).text ≤ 4095) :
    nameSize (pathOf r).text ≤ 4095 := by
  by_cases root : r = []
  · subst root
    decide
  · rw [pathOf, List.map_append, List.map_singleton] at short
    exact (nameSize_text_concat (by simpa using root) (Name.text name)).trans short

/-- What lies in a folder is reached only if the folder is open. -/
theorem Reaches.isOpen_above (way : d.Reaches (r ++ [name])) : d.IsOpen r := by
  have nul := way.nul
  rw [List.any_append, Bool.or_eq_false_iff] at nul
  exact ⟨⟨nul.1, short_above way.short, fun n member => way.brief n (List.mem_append_left _ member),
    fun q below away => way.above q (below.trans (List.prefix_append _ _)) fun same => by
      subst same
      simpa using below.length_le⟩,
    way.above r (List.prefix_append _ _) (by simp)⟩

theorem locate_pathOf_eq (d : Disk) (here r : Route) : d.locate here (pathOf r) =
    if r.any (·.contains 0) then .error ⟨.nul, pathOf r⟩
    else if 4095 < nameSize (pathOf r).text then .error ⟨.tooLong, pathOf r⟩
    else match walk d [] r with
      | .ok t => .ok t
      | .error o => .error ⟨o, pathOf r⟩ := by
  have start : (if (pathOf r).anchor = .here then here else []) = [] := if_neg (by simp [pathOf])
  rw [locate, refusal?_pathOf, names_pathOf, start]
  cases r.any (·.contains 0) <;> rfl

/-- A name that is not too long itself is out of reach only where the folder is. -/
theorem walk_above_tooLong (down : name ≠ Name.up) (brief : name.length ≤ 255)
    (long : walk d [] (r ++ [name]) = .error .tooLong) : walk d [] r = .error .tooLong := by
  rw [walk_append] at long
  cases walks : walk d [] r with
  | error obstacle => rwa [walks] at long
  | ok q =>
    rw [walks, Except.bind, walk] at long
    rcases found : d.find? q with _ | ⟨content⟩ | _
    · simp [found] at long
    · simp [found] at long
    · simp [found, down, Nat.not_lt.mpr brief, walk] at long

/-- Where it is not known whether something lies in a folder, and its own name is not at fault, the
folder cannot be made. -/
theorem makeFolders_of_has_error {error : DiskError} (down : name ≠ Name.up)
    (brief : name.length ≤ 255) (short : nameSize (pathOf (r ++ [name])).text ≤ 4095)
    (h : d.has here (pathOf (r ++ [name])) = .error error) :
    ∃ error', d.makeFolders here .root (pathOf r).names.reverse = (.error error', d) := by
  obtain ⟨nul, walks⟩ : ¬r.any (·.contains 0) = true ∧
      walk d [] r = .error .tooLong := by
    rw [has, locate_pathOf_eq, if_neg (Nat.not_lt.mpr short)] at h
    split at h
    · exact absurd h (by simp)
    · next p long =>
      split at long
      · exact absurd long (by simp)
      next nul =>
      rw [List.any_append, Bool.or_eq_true, not_or] at nul
      refine ⟨nul.1, walk_above_tooLong down brief ?_⟩
      split at long
      · exact absurd long (by simp)
      · next obstacle walks =>
        have same : obstacle = .tooLong := congrArg DiskError.obstacle (Except.error.inj long)
        rw [walks, same]
    · exact absurd h (by simp)
  have root : r ≠ [] := by
    rintro rfl
    exact absurd walks (by simp [walk])
  have long : d.locate here (pathOf r) = .error ⟨.tooLong, pathOf r⟩ := by
    rw [locate_pathOf_eq, if_neg nul, if_neg (Nat.not_lt.mpr (short_above short)), walks]
  have named : (pathOf r).names.reverse ≠ [] := by simpa [pathOf] using root
  obtain ⟨last, above, reversed⟩ := List.exists_cons_of_ne_nil named
  have path : (⟨.root, (last :: above).reverse⟩ : Path) = pathOf r := by
    rw [← reversed, List.reverse_reverse]
    rfl
  have failed : d.makeFolder here ⟨.root, (last :: above).reverse⟩ = .error ⟨.tooLong, pathOf r⟩ := by
    rw [path, makeFolder, long]
  rw [reversed]
  refine makeFolders_of_error failed ?_ fun same => absurd same (by simp)
  rw [path, hasFolder, long]

end Disk

namespace Bundle

open Act Disk

variable {env : Env} {s : State} {d e : Disk} {bundle : Bundle} {r : Route} {name : Name}
  {target : Path}

/-- Whether a bundle can be written under a name into a folder: the folder can be made, what lies under
the name is replaced only by force, and the bundle can be staged. -/
structure CanPlace (d : Disk) (here r : Route) (name : Name) (bundle : Bundle) (force : Bool) :
    Prop where
  ground : (d.makeFolders here .root (pathOf r).names.reverse).1 = .ok ()
  allowed : force = true ∨ (d.grounded here r).find? (r ++ [name]) = none
  stage : CanStage (d.grounded here r) (r ++ [name]) bundle

/-- Which name is free depends on the numbered names only. -/
theorem freeName_congr {front back : Text} (same : ∀ n,
    e.find? (numberedRoute r front back n) = d.find? (numberedRoute r front back n)) :
    e.freeName r front back = d.freeName r front back := by
  obtain ⟨m, chosen, free, before⟩ := freeName_eq d r front back
  obtain ⟨n, chosen', free', before'⟩ := freeName_eq e r front back
  rw [same] at free'
  have first : m ≤ n := Nat.not_lt.mp fun less => before n less free'
  have second : n ≤ m := Nat.not_lt.mp fun less => before' m less ((same m).trans free)
  rw [chosen, chosen', Nat.le_antisymm first second]

/-- Whether a bundle can be staged depends on the way to the folder, on what lies under the name and on
what lies under the names that it may be staged under. -/
theorem canStage_congr (above : ∀ q, q <+: r → e.find? q = d.find? q)
    (own : e.find? (r ++ [name]) = d.find? (r ++ [name]))
    (staged : ∀ n, e.find? (numberedRoute r ("." ++ Name.text name ++ "-") [] n)
      = d.find? (numberedRoute r ("." ++ Name.text name ++ "-") [] n)) :
    CanStage e (r ++ [name]) bundle ↔ CanStage d (r ++ [name]) bundle := by
  have beside (d : Disk) : besideOf d (r ++ [name])
      = r ++ [Name.ofText (d.freeName r ("." ++ Name.text name ++ "-") [])] := by simp [besideOf]
  have fresh := freeName_congr staged
  have way (last : Name) : e.Reaches (r ++ [last]) ↔ d.Reaches (r ++ [last]) := by
    have inside {q : Route} (below : q <+: r ++ [last]) (away : q ≠ r ++ [last]) : q <+: r :=
      (List.prefix_concat_iff.mp below).resolve_left away
    exact ⟨fun way => way.mono fun q below away folder => above q (inside below away) ▸ folder,
      fun way => way.mono fun q below away folder => (above q (inside below away)).trans folder⟩
  have put (d e : Disk) (own : e.find? (r ++ [name]) = d.find? (r ++ [name]))
      (way : e.Reaches (r ++ [name]) ↔ d.Reaches (r ++ [name])) {beside : Route}
      (can : CanPut d (r ++ [name]) beside bundle) : CanPut e (r ++ [name]) beside bundle :=
    ⟨can.fits, fun content => own ▸ can.noFile content, way.mpr can.way⟩
  constructor
  · rintro ⟨reaches, can⟩
    rw [beside, fresh] at reaches can
    refine ⟨?_, ?_⟩ <;> rw [beside]
    · exact (way _).mp reaches
    · exact put e d own.symm (way name).symm can
  · rintro ⟨reaches, can⟩
    rw [beside] at reaches can
    refine ⟨?_, ?_⟩ <;> rw [beside, fresh]
    · exact (way _).mpr reaches
    · exact put d e own (way name) can

/-- A target that cannot be asked for, or whose path is too long, is not looked at. -/
theorem run_writeFolder_unwritable {route : Route} (force : Bool)
    (plain : refusal? target = none → IsPlain route) (goes : resolve env.here target = route)
    (unwritable : ¬(refusal? target = none ∧ nameSize (pathOf route).text ≤ 4095)) :
    ∃ failure, (writeFolder target bundle force).run env s = (.error failure, s) := by
  rw [writeFolder_eq, run_bind, run_env]
  dsimp only
  cases refused : refusedOn? target with
  | some error => exact ⟨_, rfl⟩
  | none =>
    have accepted := refusedOn?_eq_none_iff.mp refused
    have plain := plain accepted
    have long : ¬nameSize (pathOf route).text ≤ 4095 := fun short => unwritable ⟨accepted, short⟩
    have located : s.disk.locate env.here (pathOf route) = .error ⟨.tooLong, pathOf route⟩ := by
      rw [locate_pathOf_eq, if_neg (Bool.eq_false_iff.mp plain.nul), if_pos (Nat.not_le.mp long)]
    have asked : s.disk.has env.here (pathOf route) = .error ⟨.tooLong, pathOf route⟩ := by
      rw [has, located]
    dsimp only
    rw [goes, run_bind, run_ask, asked]
    exact ⟨_, rfl⟩

/-- A bundle is in its place and nothing else has changed on the disk with the folder, or that is the
disk as it is. -/
theorem run_placed (force : Bool) (tree : s.disk.IsTree) (plain : IsPlain (r ++ [name]))
    (accepted : refusal? target = none) (goes : resolve env.here target = r ++ [name])
    (brief : name.length ≤ 255) (short : nameSize (pathOf (r ++ [name])).text ≤ 4095) :
    (CanPlace s.disk env.here r name bundle force ∧ ∃ t,
      (writeFolder target bundle force).run env s
        = (.ok (paths (absolute env.here target) bundle), t) ∧
      Fills bundle.spelled (r ++ [name]) t.disk ∧
      ∀ q, ¬(r ++ [name]) <+: q → t.disk.find? q = (s.disk.grounded env.here r).find? q) ∨
    (¬CanPlace s.disk env.here r name bundle force ∧ ∃ failure t,
      (writeFolder target bundle force).run env s = (.error failure, t) ∧
      (s.disk.grounded env.here r).Same t.disk) := by
  have root : r ++ [name] ≠ [] := by simp
  have down : ∀ n ∈ r, n ≠ Name.up := fun n member =>
    plain.down n (List.mem_append_left [name] member)
  rw [writeFolder_eq, run_bind, run_env]
  dsimp only
  rw [refusedOn?_eq_none_iff.mpr accepted]
  dsimp only
  rw [goes, run_bind, run_ask, List.dropLast_concat]
  cases asked : s.disk.has env.here (pathOf (r ++ [name])) with
  | error error =>
    obtain ⟨error', made⟩ := makeFolders_of_has_error (plain.down name (by simp)) brief short asked
    refine .inr ⟨fun can => absurd can.ground (by simp [made]), _, s, rfl, fun q => ?_⟩
    rw [grounded, made]
  | ok isTaken =>
    dsimp only [Except.mapError]
    obtain ⟨taken, reaches⟩ := has_eq_ok tree plain asked
    split
    · next refused =>
      -- What lies under the name lies in a folder that is open.
      rw [Bool.and_eq_true, Bool.not_eq_true'] at refused
      have made := makeFolders_of_isOpen down (reaches refused.1).isOpen_above env.here
      refine .inr ⟨fun can => ?_, _, s, rfl, fun q => by rw [grounded, made]⟩
      have free := can.allowed.resolve_left (by simp [refused.2])
      rw [grounded, made] at free
      simp [free, refused.1] at taken
    next allowed =>
    have forced : isTaken = true → force = true := by simpa using allowed
    rw [run_bind, run_makeFolders]
    have root' : (pathOf r).anchor = .root := rfl
    rw [root']
    rcases makes : s.disk.makeFolders env.here .root (pathOf r).names.reverse
      with ⟨error | ⟨⟩, d⟩
    · exact .inr ⟨fun can => absurd can.ground (by simp [makes]), _, _, rfl, fun q => by
        rw [grounded, makes]⟩
    have ground : s.disk.grounded env.here r = d := by rw [grounded, makes]
    have same : d.find? (r ++ [name]) = s.disk.find? (r ++ [name]) := by
      rw [← ground]
      exact find?_grounded down fun above => by simpa using above.length_le
    have adds : Adds s.disk d := by
      have adds := (adds_makeFolders (d := s.disk) env.here .root (pathOf r).names.reverse).1
      rwa [makes] at adds
    have tree' : d.IsTree := adds.tree tree
    dsimp only [Except.mapError]
    rw [ground, run_bind]
    have reaches' (entry : Entry) (found : d.find? (r ++ [name]) = some entry) :
        d.Reaches (r ++ [name]) :=
      (reaches (by rw [taken, ← same, found]; rfl)).mono fun q _ _ => adds.kept q .folder
    rcases run_stage (s := { s with disk := d }) plain root tree' reaches' env with
      ⟨can, t, stages, fills, others⟩ | ⟨cannot, failure, t, fails, same⟩
    · rw [stages]
      refine .inl ⟨⟨by rw [makes], ?_, ground ▸ can⟩, t, rfl, fills, others⟩
      rw [ground, same]
      cases isTaken with
      | true => exact .inl (forced rfl)
      | false => exact .inr (by simpa using taken.symm)
    · rw [fails]
      exact .inr ⟨fun can => cannot (ground ▸ can.stage), failure, t, rfl, same⟩

end Bundle

end Grimoire
