import Grimoire.Proofs.Book.Sample
import Grimoire.Proofs.Bundle.Filling
import Grimoire.Proofs.Entries

/-!
# Writing a bundle is all or nothing

A bundle is written into a folder beside the target. Where that fails the folder is taken away again
(`Bundle.run_stage`), and once the target has been taken away nothing can fail any more
(`Bundle.run_putFolder`). So either the bundle can be written (`Bundle.CanWrite`), and then the
target holds it and nothing else, or everything is as it was but for folders above the target
(`Bundle.writeFolder_atomic`).
-/

namespace Grimoire.Bundle

open Act Disk

variable {env : Env} {s t : State} {d e : Disk} {bundle : Bundle} {beside route : Route}

/-! ## A folder beside the target -/

/-- The route of a new folder beside a route. -/
def besideOf (d : Disk) (route : Route) : Route :=
  route.dropLast ++
    [Name.ofText (d.freeName route.dropLast ("." ++ Name.text (route.getLast?.getD []) ++ "-") [])]

/-- Whether a route leads to where nothing lies, in the same folder as another route. -/
structure IsBeside (d : Disk) (route beside : Route) : Prop where
  length : beside.length = route.length
  other : beside ≠ route
  down : ∀ name ∈ beside, name ≠ Name.up
  free : ∀ q, beside <+: q → d.find? q = none

theorem IsBeside.root (isBeside : IsBeside d route beside) (root : route ≠ []) : beside ≠ [] := by
  rintro rfl
  exact root (List.length_eq_zero_iff.mp isBeside.length.symm)

/-- The name of the new folder is longer than that of the target. -/
theorem isBeside_besideOf (tree : d.IsTree) (plain : IsPlain route) (root : route ≠ []) :
    IsBeside d route (besideOf d route) := by
  have last : route.getLast?.getD [] = route.getLast root := by
    rw [List.getLast?_eq_some_getLast root]
    rfl
  let front : Text := "." ++ Name.text (route.getLast root) ++ "-"
  obtain ⟨n, name, free, -⟩ := freeName_eq d route.dropLast front []
  have longer := length_numberedName front [] n
  have size : (Name.ofText front).length = (route.getLast root).length + 2 := by
    rw [Name.ofText_append, Name.ofText_append, Name.ofText_text, List.length_append,
      List.length_append, show (Name.ofText ".").length = 1 by decide,
      show (Name.ofText "-").length = 1 by decide]
    omega
  rw [size, ← name] at longer
  rw [numberedRoute, ← name] at free
  rw [besideOf, last]
  change IsBeside d route (route.dropLast ++ [Name.ofText (d.freeName route.dropLast front [])])
  generalize Name.ofText (d.freeName route.dropLast front []) = fresh at free longer
  refine ⟨?_, fun same => ?_, fun name member => ?_, fun q below => ?_⟩
  · have positive := List.length_pos_iff.mpr root
    rw [List.length_append, List.length_dropLast, List.length_singleton]
    omega
  · have names := same.trans (List.dropLast_append_getLast root).symm
    obtain rfl := List.singleton_inj.mp (List.append_cancel_left names)
    omega
  · rcases List.mem_append.mp member with above | own
    · exact plain.down name (List.mem_of_mem_dropLast above)
    · obtain rfl := List.mem_singleton.mp own
      rintro rfl
      have two : Name.up.length = 2 := rfl
      omega
  · by_cases itself : route.dropLast ++ [fresh] = q
    · exact itself ▸ free
    · exact tree.below_file below itself (by simp [free])

/-- The folder beside a route is made if it is reached. -/
theorem run_makeFolderBeside (tree : s.disk.IsTree) (plain : IsPlain route) (root : route ≠ [])
    (env : Env) :
    (s.disk.Reaches (besideOf s.disk route) ∧
      (makeFolderBeside route).run env s = (.ok (besideOf s.disk route),
        { s with disk := s.disk.put (besideOf s.disk route) .folder })) ∨
    (¬s.disk.Reaches (besideOf s.disk route) ∧ ∃ failure,
      (makeFolderBeside route).run env s = (.error failure, s)) := by
  have isBeside := isBeside_besideOf tree plain root
  have parts : (makeFolderBeside route).run env s = (do
      change fun disk here => disk.makeFolder here (pathOf (besideOf s.disk route))
      return besideOf s.disk route).run env s := rfl
  rw [parts, run_bind]
  cases made : s.disk.makeFolder env.here (pathOf (besideOf s.disk route)) with
  | error error =>
    rw [run_change_of_error made]
    refine .inr ⟨fun way => ?_, _, rfl⟩
    have makes := (makeFolder_eq_ok env.here isBeside.down).mpr
      ⟨way, isBeside.free _ List.prefix_rfl, rfl⟩
    exact absurd (made.symm.trans makes) (by simp)
  | ok e =>
    obtain ⟨way, -, rfl⟩ := (makeFolder_eq_ok env.here isBeside.down).mp made
    have changes : (change fun disk here =>
        disk.makeFolder here (pathOf (besideOf s.disk route))).run env s
          = (.ok (), { s with disk := s.disk.put (besideOf s.disk route) .folder }) :=
      run_change_eq_ok.mpr ⟨_, made, rfl⟩
    rw [changes]
    exact .inl ⟨way, rfl⟩

/-! ## The folder in the place of the target -/

/-- The writing of a bundle into a folder and the move of the folder to its place. -/
def putFolder (beside route : Route) (bundle : Bundle) : Act Unit := do
  writeEntries (pathOf beside) bundle
  clearFolder route
  change fun disk here => disk.replace here beside (pathOf route)

/-- A folder is cleared away with all that is in it, and nothing is left; a file is in the way. -/
theorem run_clearFolder (root : route ≠ [])
    (bare : s.disk.find? route = none → ∀ q, route <+: q → s.disk.find? q = none) (env : Env) :
    (∃ content failure, s.disk.find? route = some (.file content) ∧
      (clearFolder route).run env s = (.error failure, s)) ∨
    ∃ c, (clearFolder route).run env s = (.ok (), { s with disk := c }) ∧
      (s.disk.find? route = none ∧ c = s.disk ∨ s.disk.find? route = some .folder) ∧
      ∀ q, c.find? q = if route <+: q then none else s.disk.find? q := by
  rw [clearFolder, run_bind, run_state]
  dsimp only
  cases found : s.disk.find? route with
  | none =>
    refine .inr ⟨s.disk, rfl, .inl ⟨rfl, rfl⟩, fun q => ?_⟩
    split
    · next below => exact bare found q below
    · rfl
  | some entry =>
    cases entry with
    | file content => exact .inl ⟨content, _, rfl, rfl⟩
    | folder =>
      refine .inr ⟨s.disk.removeTree route, rfl, .inr rfl, fun q => ?_⟩
      rw [find?_removeTree _ _ _ root]
      simp only [List.isPrefixOf_iff_prefix]

/-- The way to the target does not lead through what was written or cleared away. -/
theorem reaches_cleared {c : Disk} (isBeside : IsBeside d route beside)
    (same : ∀ q, ¬beside <+: q → e.find? q = d.find? q)
    (cleared : ∀ q, c.find? q = if route <+: q then none else e.find? q) :
    c.Reaches route ↔ d.Reaches route := by
  have passed (q : Route) (above : q <+: route) (away : q ≠ route) : c.find? q = d.find? q := by
    have below : ¬route <+: q := fun below => away (above.eq_of_length_le below.length_le)
    have outside : ¬beside <+: q := fun inside =>
      not_prefix_of_length isBeside.length.symm (Ne.symm isBeside.other) List.prefix_rfl
        (inside.trans above)
    rw [cleared, if_neg below, same q outside]
  constructor
  · exact fun way => way.mono fun q above away folder => passed q above away ▸ folder
  · exact fun way => way.mono fun q above away folder => (passed q above away).trans folder

/-- The folder that gets to its place brings the bundle along. -/
theorem fills_replace {c u : Disk} (plain : IsPlain route) (root : route ≠ [])
    (isBeside : IsBeside d route beside) (full : Fills bundle beside e)
    (same : ∀ q, ¬beside <+: q → e.find? q = d.find? q)
    (cleared : ∀ q, c.find? q = if route <+: q then none else e.find? q)
    (h : c.replace env.here beside (pathOf route) = .ok u) :
    Fills bundle route u ∧ ∀ q, ¬route <+: q → u.find? q = d.find? q := by
  have replaced := find?_replace_folder plain.down isBeside.length isBeside.other root h
  refine ⟨full.congr fun q => ?_, fun q outside => ?_⟩
  · have apart :=
      not_prefix_of_length isBeside.length isBeside.other (List.prefix_append beside q)
    rw [replaced, if_pos (List.prefix_append route q), List.drop_left, cleared, if_neg apart]
  · rw [replaced, if_neg outside]
    split
    · next below => exact (isBeside.free q below).symm
    · next away => rw [cleared, if_neg outside, same q away]

/-- Once the target is cleared away, the folder gets to its place just if the way to the target is there.
-/
theorem run_replace {c : Disk} (plain : IsPlain route) (root : route ≠ [])
    (isBeside : IsBeside d route beside) (full : Fills bundle beside e)
    (same : ∀ q, ¬beside <+: q → e.find? q = d.find? q)
    (cleared : ∀ q, c.find? q = if route <+: q then none else e.find? q) (env : Env) (t : State) :
    (d.Reaches route ∧ ∃ u, (change fun disk here => disk.replace here beside (pathOf route)).run env
        { t with disk := c } = (.ok (), u) ∧
      Fills bundle route u.disk ∧ ∀ q, ¬route <+: q → u.disk.find? q = d.find? q) ∨
    (¬d.Reaches route ∧ ∃ failure,
      (change fun disk here => disk.replace here beside (pathOf route)).run env
        { t with disk := c } = (.error failure, { t with disk := c })) := by
  rcases moves : (change fun disk here => disk.replace here beside (pathOf route)).run env
    { t with disk := c } with ⟨failure | ⟨⟩, u⟩
  · obtain rfl := run_change_eq_error moves
    refine .inr ⟨fun way => ?_, failure, rfl⟩
    have filled : c.find? beside = some .folder := by
      rw [cleared, if_neg (not_prefix_of_length isBeside.length isBeside.other List.prefix_rfl),
        full.folder]
    have free : c.find? route = none := by rw [cleared, if_pos List.prefix_rfl]
    obtain ⟨e, replaced⟩ := replace_folder env.here plain root
      ((reaches_cleared isBeside same cleared).mpr way) filled free
    have moved : (change fun disk here => disk.replace here beside (pathOf route)).run env
        { t with disk := c } = (.ok (), { t with disk := e }) :=
      run_change_eq_ok.mpr ⟨e, replaced, rfl⟩
    exact absurd (moves.symm.trans moved) (by simp)
  · obtain ⟨disk, replaced, rfl⟩ := run_change_eq_ok.mp moves
    exact .inl ⟨(reaches_cleared isBeside same cleared).mp (reaches_of_replace plain.down replaced),
      _, rfl, fills_replace plain root isBeside full same cleared replaced⟩

/-- Whether a bundle can be put in the place of what lies at a route, by way of a folder beside. -/
structure CanPut (d : Disk) (route beside : Route) (bundle : Bundle) : Prop where
  fits : ∀ entry ∈ bundle, Fits beside entry
  noFile : ∀ content, d.find? route ≠ some (.file content)
  way : d.Reaches route

/-- Either the folder has got to its place, or nothing outside of it has changed: what takes away
the target is not followed by anything that could fail. -/
theorem run_putFolder (plain : IsPlain route) (root : route ≠ []) (tree : d.IsTree)
    (reaches : ∀ entry, d.find? route = some entry → d.Reaches route)
    (isBeside : IsBeside d route beside) (way : d.Reaches beside)
    (start : s.disk = d.put beside .folder) (env : Env) :
    (CanPut d route beside bundle ∧ ∃ t,
      (putFolder beside route bundle).run env s = (.ok (), t) ∧ Fills bundle.spelled route t.disk ∧
      ∀ q, ¬route <+: q → t.disk.find? q = d.find? q) ∨
    (¬CanPut d route beside bundle ∧ ∃ failure t,
      (putFolder beside route bundle).run env s = (.error failure, t) ∧
      ∀ q, ¬beside <+: q → t.disk.find? q = d.find? q) := by
  have outside (q : Route) (other : q ≠ beside) : s.disk.find? q = d.find? q := by
    rw [start, find?_put _ _ _ _ (isBeside.root root), if_neg other]
  have away {q : Route} (outside : ¬beside <+: q) : q ≠ beside := by
    rintro rfl
    exact outside List.prefix_rfl
  have apart {q : Route} (below : route <+: q) : ¬beside <+: q :=
    not_prefix_of_length isBeside.length.symm (Ne.symm isBeside.other) below
  have fills : Fills (spelled []) beside s.disk := start ▸ fills_nil (isBeside.root root) isBeside.free
  have isOpen : IsOpenFolder beside s.disk :=
    ⟨isBeside.root root, isBeside.down,
      way.mono fun q _ other folder => (outside q other).trans folder, fills.folder⟩
  rw [putFolder, run_bind]
  rcases run_writeEntries isOpen fills env with
    ⟨fits, t, writes, full, kept⟩ | ⟨unfit, failure, t, fails, kept⟩
  · have same (q : Route) (inside : ¬beside <+: q) : t.disk.find? q = d.find? q :=
      (kept q inside).trans (outside q (away inside))
    have atTarget : t.disk.find? route = d.find? route := same route (apart List.prefix_rfl)
    have bare (free : t.disk.find? route = none) (q : Route) (below : route <+: q) :
        t.disk.find? q = none := by
      rw [same q (apart below)]
      by_cases itself : route = q
      · rw [← itself, ← atTarget, free]
      · exact tree.below_file below itself (by simp [← atTarget, free])
    rw [writes]
    dsimp only
    rw [run_bind]
    rcases run_clearFolder root bare env with
      ⟨content, failure, file, fails⟩ | ⟨c, clears, kind, cleared⟩
    · rw [fails]
      exact .inr ⟨fun can => can.noFile content (atTarget ▸ file), failure, t, rfl, same⟩
    rw [clears]
    dsimp only
    rcases run_replace plain root isBeside full same cleared env t with
      ⟨way, u, moves, filled⟩ | ⟨lost, failure, fails⟩
    · have noFile (content : Bytes) : d.find? route ≠ some (.file content) := by
        rw [← atTarget]
        rcases kind with ⟨free, -⟩ | folder
        · simp [free]
        · simp [folder]
      exact .inl ⟨⟨fits, noFile, way⟩, u, moves, filled⟩
    · refine .inr ⟨fun can => lost can.way, failure, _, fails, ?_⟩
      rcases kind with ⟨-, rfl⟩ | folder
      · exact same
      · -- A target that was cleared away was reached.
        exact absurd (reaches .folder (atTarget.symm.trans folder)) lost
  · rw [fails]
    exact .inr ⟨fun can => unfit can.fits, failure, t, rfl,
      fun q inside => (kept q inside).trans (outside q (away inside))⟩

/-- The making of a folder beside a route, its filling and its move to the route. -/
def stage (route : Route) (bundle : Bundle) : Act Unit := do
  let beside ← makeFolderBeside route
  orRemove beside (putFolder beside route bundle)

/-- Whether a folder can be made beside a route, and a bundle be put in its place by way of it. -/
structure CanStage (d : Disk) (route : Route) (bundle : Bundle) : Prop where
  beside : d.Reaches (besideOf d route)
  put : CanPut d route (besideOf d route) bundle

/-- A bundle gets to its place, or everything is as it was and the folder beside is gone. -/
theorem run_stage (plain : IsPlain route) (root : route ≠ []) (tree : s.disk.IsTree)
    (reaches : ∀ entry, s.disk.find? route = some entry → s.disk.Reaches route)
    (env : Env) :
    (CanStage s.disk route bundle ∧ ∃ t, (stage route bundle).run env s = (.ok (), t) ∧
      Fills bundle.spelled route t.disk ∧ ∀ q, ¬route <+: q → t.disk.find? q = s.disk.find? q) ∨
    (¬CanStage s.disk route bundle ∧ ∃ failure t,
      (stage route bundle).run env s = (.error failure, t) ∧ s.disk.Same t.disk) := by
  have isBeside := isBeside_besideOf tree plain root
  rw [stage, run_bind]
  rcases run_makeFolderBeside tree plain root env with ⟨way, makes⟩ | ⟨lost, failure, fails⟩
  · rw [makes]
    dsimp only
    rw [run_orRemove]
    rcases run_putFolder (s := { s with disk := s.disk.put (besideOf s.disk route) .folder })
      plain root tree reaches isBeside way rfl env with
      ⟨can, t, puts, filled⟩ | ⟨cannot, failure, t, fails, same⟩
    · rw [puts]
      exact .inl ⟨⟨way, can⟩, t, rfl, filled⟩
    · rw [fails]
      refine .inr ⟨fun can => cannot can.put, failure, _, rfl, fun q => ?_⟩
      rw [find?_removeTree _ _ _ (isBeside.root root)]
      split
      · next below => exact (isBeside.free q (List.isPrefixOf_iff_prefix.mp below)).symm
      · next away => exact same q fun below => away (List.isPrefixOf_iff_prefix.mpr below)
  · rw [fails]
    exact .inr ⟨fun can => lost can.beside, failure, s, rfl, fun q => rfl⟩

/-! ## Writing a bundle -/

/-- Whether a bundle has been written at a target: the target holds its files and nothing else, and
outside of the target at most folders above it are new. Entries whose names are the same on a disk have
one file, with the content of the last of them. The paths are those of the entries, sorted by name. -/
structure IsWritten (d : Disk) (here : Route) (target : Path) (bundle : Bundle) (force : Bool)
    (written : List Path) (e : Disk) : Prop where
  allowed : force = true ∨ d.find? (resolve here target) = none
  filled : Fills bundle.spelled (resolve here target) e
  others : ∀ q, ¬resolve here target <+: q → KeptAt (resolve here target).dropLast d e q
  listed : ∃ names : List Text, names.Perm bundle.keys ∧
    (names.Pairwise fun m n => Text.le m n = true) ∧
    written = names.map fun name => child (absolute here target) name

/-- Whether the folders above a route can be made, and a bundle be staged once they are there. -/
structure CanPrepare (d : Disk) (here route : Route) (bundle : Bundle) : Prop where
  above : (d.makeFolders here .root (pathOf route.dropLast).names.reverse).1 = .ok ()
  stage : CanStage (d.makeFolders here .root (pathOf route.dropLast).names.reverse).2 route bundle

/-- Whether a bundle can be written: the target can be asked for, it is known whether something lies
there, which is replaced only by force, and the bundle can be staged. -/
structure CanWrite (d : Disk) (here : Route) (target : Path) (bundle : Bundle) (force : Bool) :
    Prop where
  accepted : refusal? target = none
  allowed : ∃ taken, d.has here (pathOf (resolve here target)) = .ok taken ∧
    (taken = true → force = true)
  prepare : CanPrepare d here (resolve here target) bundle

theorem sorted_keys (bundle : Bundle) :
    bundle.sorted.keys.Perm bundle.keys ∧
      bundle.sorted.keys.Pairwise fun m n => Text.le m n = true :=
  ⟨(List.mergeSort_perm _ _).map _, List.pairwise_map.mpr (Entries.pairwise_sorted bundle)⟩

/-- The names of a resolved path can stand in a route. -/
theorem isPlain_resolve {here : Route} {target : Path} (plain : IsPlain here)
    (named : ∀ name ∈ target.names, name ≠ []) (accepted : refusal? target = none) :
    IsPlain (resolve here target) := by
  obtain ⟨nameable, nul⟩ := refusal?_eq_none_iff.mp accepted
  rw [resolve_eq, names]
  have start : IsPlain (if target.anchor = .here then here else []) := by
    split
    · exact plain
    · exact fun name member => absurd member (by simp)
  rw [List.all_eq_true] at nameable
  rw [List.any_eq_false] at nul
  generalize (if target.anchor = .here then here else []) = r at start
  generalize target.names = texts at named nameable nul
  induction texts generalizing r with
  | nil => exact start
  | cons name texts ih =>
    rw [List.forall_mem_cons] at named nameable nul
    refine ih _ ?_ named.2 nameable.2 nul.2
    rw [follow]
    split
    · exact fun n member => start n (List.mem_of_mem_dropLast member)
    · next down =>
      intro n member
      rcases List.mem_append.mp member with old | new
      · exact start n old
      · obtain rfl := List.mem_singleton.mp new
        exact ⟨Name.ofText_ne_nil nameable.1 named.1, down,
          Name.zero_mem_ofText.not.mpr (by simpa using nul.1)⟩

theorem parent_pathOf (r : Route) : (pathOf r).parent = pathOf r.dropLast := by
  rw [Path.parent, pathOf, pathOf, List.map_dropLast]

theorem writeFolder_eq (target : Path) (bundle : Bundle) (force : Bool) :
    writeFolder target bundle force = (do
      let env ← Act.env
      match refusedOn? target with
      | some error => throw (.disk error)
      | none => do
        let isTaken ← Act.ask fun disk here =>
          disk.has here (pathOf (resolve env.here target))
        if isTaken && !force then throw (.folderTaken (absolute env.here target))
        else do
          Act.makeFolders (pathOf (resolve env.here target).dropLast)
          stage (resolve env.here target) bundle
          return paths (absolute env.here target) bundle) := by
  rw [writeFolder]
  refine congrArg _ (funext fun env => ?_)
  cases refusedOn? target with
  | some error => rfl
  | none =>
    dsimp only
    refine congrArg _ (funext fun isTaken => ?_)
    rw [parent_pathOf]
    split
    · rfl
    · simp only [stage, bind_assoc]
      rfl

/-- Folders above a route do not lie at the route. -/
theorem find?_of_keptAt (root : route ≠ []) {q : Route} (below : route <+: q)
    (kept : KeptAt route.dropLast d e q) : e.find? q = d.find? q := by
  rcases kept with same | ⟨-, -, above⟩
  · exact same
  · exact absurd (below.trans above) (not_prefix_dropLast root)

/-- What is done once the target may be written: the folders above it are made, and the bundle is
staged. -/
theorem run_prepared (plain : IsPlain route) (root : route ≠ []) (tree : s.disk.IsTree)
    (reaches : ∀ entry, s.disk.find? route = some entry → s.disk.Reaches route)
    (env : Env) :
    (CanPrepare s.disk env.here route bundle ∧ ∃ t,
      (do makeFolders (pathOf route.dropLast); stage route bundle).run env s = (.ok (), t) ∧
      Fills bundle.spelled route t.disk ∧ ∀ q, ¬route <+: q → KeptAt route.dropLast s.disk t.disk q) ∨
    (¬CanPrepare s.disk env.here route bundle ∧ ∃ failure t,
      (do makeFolders (pathOf route.dropLast); stage route bundle).run env s
        = (.error failure, t) ∧ ∀ q, KeptAt route.dropLast s.disk t.disk q) := by
  have down : ∀ name ∈ route.dropLast, name ≠ Name.up := fun name member =>
    plain.down name (List.mem_of_mem_dropLast member)
  have kept (q : Route) : KeptAt route.dropLast s.disk
      (s.disk.makeFolders env.here .root (pathOf route.dropLast).names.reverse).2 q :=
    keptAt_foldersOf env.here down q
  have adds := (adds_makeFolders (d := s.disk) env.here .root (pathOf route.dropLast).names.reverse).1
  have root' : (pathOf route.dropLast).anchor = .root := rfl
  rw [run_bind, run_makeFolders, root']
  rcases makes : s.disk.makeFolders env.here .root (pathOf route.dropLast).names.reverse
    with ⟨made, d⟩
  rw [makes] at kept adds
  rcases made with error | ⟨⟩
  · exact .inr ⟨fun can => absurd can.above (by simp [makes]), _, _, rfl, kept⟩
  have same {q : Route} (below : route <+: q) : d.find? q = s.disk.find? q :=
    find?_of_keptAt root below (kept q)
  have reaches' : ∀ entry, d.find? route = some entry → d.Reaches route := fun entry found =>
    (reaches entry (same List.prefix_rfl ▸ found)).mono fun q _ _ folder => adds.kept q _ folder
  rcases run_stage (s := { s with disk := d }) plain root (adds.tree tree) reaches' env
    with ⟨can, t, stages, fills, others⟩ | ⟨cannot, failure, t, fails, same⟩
  · refine .inl ⟨⟨by rw [makes], by rw [makes]; exact can⟩, t, stages, fills, fun q outside => ?_⟩
    rw [KeptAt, others q outside]
    exact kept q
  · refine .inr ⟨fun can => cannot ?_, failure, t, fails, fun q => ?_⟩
    · have staged := can.stage
      rwa [makes] at staged
    rw [KeptAt, same q]
    exact kept q

/-- A bundle that can be written is written. Otherwise the writing fails, and at most folders above
the target are new. -/
theorem run_writeFolder {target : Path} (force : Bool) (tree : s.disk.IsTree)
    (place : IsPlain env.here) (named : ∀ name ∈ target.names, name ≠ [])
    (root : resolve env.here target ≠ []) :
    (CanWrite s.disk env.here target bundle force ∧ ∃ written t,
      (writeFolder target bundle force).run env s = (.ok written, t) ∧
      IsWritten s.disk env.here target bundle force written t.disk) ∨
    (¬CanWrite s.disk env.here target bundle force ∧ ∃ failure t,
      (writeFolder target bundle force).run env s = (.error failure, t) ∧
      ∀ q, KeptAt (resolve env.here target).dropLast s.disk t.disk q) := by
  rw [writeFolder_eq, run_bind, run_env]
  dsimp only
  cases refused : refusedOn? target with
  | some error =>
    refine .inr ⟨fun can => ?_, _, s, rfl, fun q => .inl rfl⟩
    rw [refusedOn?_eq_none_iff.mpr can.accepted] at refused
    exact absurd refused (by simp)
  | none =>
  have accepted := refusedOn?_eq_none_iff.mp refused
  have plain := isPlain_resolve place named accepted
  dsimp only
  rw [run_bind, run_ask]
  cases asked : s.disk.has env.here (pathOf (resolve env.here target)) with
  | error error =>
    refine .inr ⟨fun can => ?_, _, s, rfl, fun q => .inl rfl⟩
    obtain ⟨taken, answer, -⟩ := can.allowed
    exact absurd (asked.symm.trans answer) (by simp)
  | ok isTaken =>
    dsimp only [Except.mapError]
    obtain ⟨taken, reaches⟩ := has_eq_ok tree plain asked
    split
    · next refused =>
      refine .inr ⟨fun can => ?_, _, s, rfl, fun q => .inl rfl⟩
      obtain ⟨answer, asks, allowed⟩ := can.allowed
      obtain rfl := Except.ok.inj (asked.symm.trans asks)
      simp only [Bool.and_eq_true, Bool.not_eq_true'] at refused
      exact absurd (allowed refused.1) (by simp [refused.2])
    next allowed =>
    have forced : isTaken = true → force = true := by simpa using allowed
    have reaches' : ∀ entry, s.disk.find? (resolve env.here target) = some entry →
        s.disk.Reaches (resolve env.here target) := fun entry found =>
      reaches (by rw [taken, found]; rfl)
    rw [← bind_assoc, run_bind]
    rcases run_prepared plain root tree reaches' env with
      ⟨can, t, stages, fills, others⟩ | ⟨cannot, failure, t, fails, kept⟩
    · rw [stages]
      refine .inl ⟨⟨accepted, ⟨isTaken, asked, forced⟩, can⟩, _, t, rfl, ?_,
        fills, others, bundle.sorted.keys, (sorted_keys bundle).1, (sorted_keys bundle).2, rfl⟩
      cases force with
      | true => exact .inl rfl
      | false => simpa [taken] using allowed
    · rw [fails]
      exact .inr ⟨fun can => cannot can.prepare, failure, t, rfl, kept⟩

/-- What has been written whenever writing a bundle succeeds. -/
theorem isWritten_of_run {target : Path} {force : Bool} {written : List Path} (tree : s.disk.IsTree)
    (place : IsPlain env.here) (named : ∀ name ∈ target.names, name ≠ [])
    (root : resolve env.here target ≠ [])
    (runs : (writeFolder target bundle force).run env s = (.ok written, t)) :
    IsWritten s.disk env.here target bundle force written t.disk := by
  rcases run_writeFolder force tree place named root with
    ⟨-, _, _, writes, done⟩ | ⟨-, failure, _, fails, -⟩
  · obtain ⟨same, rfl⟩ := Prod.mk.inj (runs.symm.trans writes)
    obtain rfl := Except.ok.inj same
    exact done
  · exact absurd (runs.symm.trans fails) (by simp)

/-- Writing a bundle either fails, and then every file and folder is as it was, but for folders
above the target that may be new, or it succeeds, and then the target holds the files of the bundle
and nothing else. Entries whose names are the same on a disk have one file. It succeeds for each bundle
that can be written. -/
theorem writeFolder_atomic {target : Path} {force : Bool} {outcome : Except Failure (List Path)}
    (tree : s.disk.IsTree) (place : IsPlain env.here) (named : ∀ name ∈ target.names, name ≠ [])
    (root : resolve env.here target ≠ [])
    (runs : (writeFolder target bundle force).run env s = (outcome, t)) :
    (∀ failure, outcome = .error failure →
      ∀ q, KeptAt (resolve env.here target).dropLast s.disk t.disk q) ∧
    (∀ written, outcome = .ok written →
      IsWritten s.disk env.here target bundle force written t.disk ∧
      ((bundle.keys.map Name.ofText).Nodup → Fills bundle (resolve env.here target) t.disk)) ∧
    ((∃ written, outcome = .ok written) ↔ CanWrite s.disk env.here target bundle force) := by
  rcases run_writeFolder force tree place named root with
    ⟨can, written, u, writes, done⟩ | ⟨cannot, failure, u, fails, kept⟩
  · obtain ⟨rfl, rfl⟩ := Prod.mk.inj (runs.symm.trans writes)
    refine ⟨fun failure error => absurd error (by simp), fun _ ok => ?_, fun _ => can,
      fun _ => ⟨written, rfl⟩⟩
    obtain rfl := Except.ok.inj ok
    exact ⟨done, fun distinct => (fills_spelled_iff distinct).mp done.filled⟩
  · obtain ⟨rfl, rfl⟩ := Prod.mk.inj (runs.symm.trans fails)
    exact ⟨fun _ _ => kept, fun written ok => absurd ok (by simp),
      fun ⟨written, ok⟩ => absurd ok (by simp), fun can => absurd can cannot⟩

/-- The route of a folder that may be there. -/
def toolRoute : Route := [Name.ofText "out", Name.ofText "tool"]

/-- A process that has just started, on a disk with a folder that holds a file. -/
def oldState : State :=
  ⟨⟨[([Name.ofText "out"], .folder), (toolRoute, .folder),
    (toolRoute ++ [Name.ofText "old"], .file [0])]⟩, [], 0, [], []⟩

/-- A folder with a file is replaced by the files of a bundle, but not if a name of the bundle leads
elsewhere. -/
theorem writeFolder_atomic_forced :
    (∃ written t, (writeFolder ⟨.here, ["out", "tool"]⟩ [("b", "2"), ("a", "é")] true).run
        Env.sample oldState = (.ok written, t) ∧
      IsWritten oldState.disk [] ⟨.here, ["out", "tool"]⟩ [("b", "2"), ("a", "é")] true written
        t.disk ∧
      Fills [("b", "2"), ("a", "é")] toolRoute t.disk) ∧
    ∃ failure t, (writeFolder ⟨.here, ["out", "tool"]⟩ [("b", "2"), ("..", "é")] true).run
        Env.sample oldState = (.error failure, t) ∧
      ∀ q, KeptAt [Name.ofText "out"] oldState.disk t.disk q := by
  have tree : oldState.disk.IsTree := isTree_of_entries (by decide)
  have place : IsPlain Env.sample.here := fun name member => absurd member (by simp [Env.sample])
  constructor
  · have fine : ((writeFolder ⟨.here, ["out", "tool"]⟩ [("b", "2"), ("a", "é")] true).run
        Env.sample oldState).1.isOk = true := by decide +kernel
    obtain ⟨written, t, runs⟩ := run_eq_ok_of_isOk fine
    obtain ⟨done, filled⟩ :=
      (writeFolder_atomic tree place (by decide) (by decide) runs).2.1 written rfl
    exact ⟨written, t, runs, done, filled (by decide)⟩
  · have wrong : ((writeFolder ⟨.here, ["out", "tool"]⟩ [("b", "2"), ("..", "é")] true).run
        Env.sample oldState).1.isOk = false := by decide +kernel
    rcases runs : (writeFolder ⟨.here, ["out", "tool"]⟩ [("b", "2"), ("..", "é")] true).run
      Env.sample oldState with ⟨failure | written, t⟩
    · exact ⟨failure, t, rfl,
        (writeFolder_atomic tree place (by decide) (by decide) runs).1 failure rfl⟩
    · rw [runs] at wrong
      exact absurd wrong (by simp [Except.isOk, Except.toBool])

/-- Two names that are spelled with different texts and have the same bytes. -/
def doubled : Bundle :=
  [("é", "1"), ([.surrogate ⟨0x4C3, by decide⟩, .surrogate ⟨0x4A9, by decide⟩], "2")]

/-- The two entries have one file, which has the content of the second one. The paths that are given are
not those of the entries in the target as it was given, which does not start at the root. -/
theorem writeFolder_doubled :
    doubled.keys.Nodup ∧
    ∃ written t, (writeFolder ⟨.here, ["tool"]⟩ doubled false).run Env.sample State.empty
        = (.ok written, t) ∧
      t.disk.find? (fileOf [Name.ofText "tool"] "é") = some (.file [0x32]) ∧
      ¬Fills doubled [Name.ofText "tool"] t.disk ∧
      written.length = 2 ∧ ∀ path ∈ written, ∀ name, path ≠ child ⟨.here, ["tool"]⟩ name := by
  have fine : ((writeFolder ⟨.here, ["tool"]⟩ doubled false).run Env.sample
      State.empty).1.isOk = true := by decide +kernel
  have file : ((writeFolder ⟨.here, ["tool"]⟩ doubled false).run Env.sample
      State.empty).2.disk.find? (fileOf [Name.ofText "tool"] "é") = some (.file [0x32]) := by
    decide +kernel
  obtain ⟨written, t, runs⟩ := run_eq_ok_of_isOk fine
  rw [runs] at file
  refine ⟨by decide, written, t, runs, file, fun fills => ?_, ?_⟩
  · obtain ⟨bytes, encoded, own⟩ := fills.files ("é", "1") (by simp [doubled])
    have one : Utf8.encode "1" = some [0x31] := by decide
    have same := encoded.symm.trans one
    rw [file, Option.some.inj same] at own
    exact absurd own (by decide)
  · have place : IsPlain Env.sample.here := fun name member => absurd member (by simp [Env.sample])
    have done := isWritten_of_run State.isTree_empty place (by decide) (by decide) runs
    obtain ⟨names, perm, -, rfl⟩ := done.listed
    refine ⟨(List.length_map _).trans perm.length_eq, List.forall_mem_map.mpr ?_⟩
    rintro _ - name same
    have anchors : Anchor.root = Anchor.here := congrArg Path.anchor same
    exact absurd anchors (by decide)

end Grimoire.Bundle
