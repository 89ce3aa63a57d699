import Grimoire.Proofs.Disk.Name
import Grimoire.Proofs.Disk.Tree
import Grimoire.Proofs.Json.Numeral
import Mathlib.Data.List.Nodup

/-!
# What steps do to a tree

Making folders only adds folders (`Disk.adds_makeFolders`). What is moved keeps its place below the
new route (`Disk.find?_move`). So putting a file in the place of another one changes what lies at
the two routes and nothing else (`Disk.find?_replace`), and taking a file away only what lies at its
route (`Disk.find?_removeFile`). The name that is chosen for a new file is the first one that is
free (`Disk.freeName_eq`).
-/

namespace Grimoire.Disk

variable {d e f : Disk}

/-! ## Adding folders -/

/-- Whether all that lies on a disk lies on another one too, which has at most more folders. -/
structure Adds (d e : Disk) : Prop where
  kept : ∀ r entry, d.find? r = some entry → e.find? r = some entry
  folders : ∀ r content, e.find? r = some (.file content) → d.find? r = some (.file content)
  tree : d.IsTree → e.IsTree

theorem Adds.refl (d : Disk) : Adds d d := ⟨fun _ _ h => h, fun _ _ h => h, fun h => h⟩

theorem Adds.trans (first : Adds d e) (second : Adds e f) : Adds d f :=
  ⟨fun r entry h => second.kept r entry (first.kept r entry h),
    fun r content h => first.folders r content (second.folders r content h),
    fun h => second.tree (first.tree h)⟩

theorem locate_eq_ok {here : Route} {p : Path} {r : Route} :
    d.locate here p = .ok r ↔ refusal? p = none ∧ nameSize p.text ≤ 4095 ∧
      walk d (if p.anchor = .here then here else []) (names p) = .ok r := by
  unfold locate
  split
  · next o refused => simp only [refused, reduceCtorEq, false_and]
  · next accepted =>
    have accepted : refusal? p = none := Option.eq_none_iff_forall_not_mem.mpr accepted
    split
    · next long => simp only [reduceCtorEq, false_iff, not_and]; omega
    · next short =>
      have short' : nameSize p.text ≤ 4095 := Nat.not_lt.mp short
      cases walk d (if p.anchor = .here then here else []) (names p) <;>
        simp only [accepted, short', reduceCtorEq, Except.ok.injEq, true_and, and_false]

/-- A path that cannot be asked for is nowhere. -/
theorem locate_of_refusal {p : Path} {o : Obstacle} (refused : refusal? p = some o) (d : Disk)
    (here : Route) : d.locate here p = .error ⟨o, p⟩ := by
  simp only [locate, refused]

theorem locate_eq_resolve {here r : Route} {p : Path} (located : d.locate here p = .ok r) :
    r = resolve here p :=
  walk_eq_follow (locate_eq_ok.mp located).2.2

theorem locate_mono (folders : ∀ r, d.find? r = some .folder → e.find? r = some .folder)
    {here r : Route} {p : Path} (h : d.locate here p = .ok r) : e.locate here p = .ok r := by
  rw [locate_eq_ok] at h ⊢
  exact ⟨h.1, h.2.1, walk_mono folders h.2.2⟩

theorem hasFolder_iff {here : Route} {p : Path} :
    d.hasFolder here p = true ↔ ∃ r, d.locate here p = .ok r ∧ d.find? r = some .folder := by
  unfold hasFolder
  cases d.locate here p <;> simp

theorem hasFolder_mono (folders : ∀ r, d.find? r = some .folder → e.find? r = some .folder)
    {here : Route} {p : Path} (h : d.hasFolder here p = true) : e.hasFolder here p = true := by
  obtain ⟨r, located, folder⟩ := hasFolder_iff.mp h
  exact hasFolder_iff.mpr ⟨r, locate_mono folders located, folders r folder⟩

theorem dropLast_ne_self {r : Route} (nonempty : r ≠ []) : r.dropLast ≠ r := by
  intro same
  have length := congrArg List.length same
  have positive := List.length_pos_iff.mpr nonempty
  rw [List.length_dropLast] at length
  omega

/-- What is put in a folder keeps a tree a tree, unless it is put in the place of a folder. -/
theorem IsTree.put (tree : d.IsTree) {r : Route} {entry : Entry} (nonempty : r ≠ [])
    (kind : d.find? r = some .folder → entry = .folder)
    (parent : d.find? r.dropLast = some .folder) : (d.put r entry).IsTree := by
  intro q entry' nonempty' found
  rw [find?_put _ _ _ _ nonempty] at found ⊢
  by_cases same : q = r
  · subst same
    rw [if_neg (dropLast_ne_self nonempty), parent]
  · rw [if_neg same] at found
    have folder := tree q entry' nonempty' found
    split
    · next above =>
      rw [above] at folder
      rw [kind folder]
    · exact folder

theorem adds_put_folder {r : Route} (nonempty : r ≠ []) (free : d.find? r = none)
    (parent : d.IsTree → d.find? r.dropLast = some .folder) : Adds d (d.put r .folder) := by
  refine ⟨?_, ?_, fun tree => tree.put nonempty (fun _ => rfl) (parent tree)⟩
  · intro q entry found
    rw [find?_put _ _ _ _ nonempty]
    split
    · next same => exact absurd (free.symm.trans (same ▸ found)) (by simp)
    · exact found
  · intro q content found
    rw [find?_put _ _ _ _ nonempty] at found
    split at found
    · exact absurd found (by simp)
    · exact found

theorem adds_makeFolder {here : Route} {p : Path} (nonempty : p.names ≠ [])
    (h : d.makeFolder here p = .ok e) : Adds d e ∧ e.hasFolder here p = true := by
  unfold makeFolder at h
  split at h
  · exact absurd h (by simp)
  · next r located =>
    split at h
    · exact absurd h (by simp)
    · next free =>
      obtain rfl := Except.ok.inj h
      have root : r ≠ [] := by
        rintro rfl
        exact absurd free (by simp)
      have adds : Adds d (d.put r .folder) := by
        refine adds_put_folder root free fun tree => ?_
        have ends := walk_end tree (names_ne_nil nonempty) (locate_eq_ok.mp located).2.2
        rcases ends with folder | ⟨-, parent⟩
        · exact absurd (free.symm.trans folder) (by simp)
        · exact parent
      refine ⟨adds, hasFolder_iff.mpr ⟨r, locate_mono (fun q => adds.kept q _) located, ?_⟩⟩
      rw [find?_put _ _ _ _ root, if_pos rfl]

/-- Making folders only adds folders; where it succeeds, the folder is there. -/
theorem adds_makeFolders (here : Route) (anchor : Anchor) (reversed : List Text) :
    Adds d (d.makeFolders here anchor reversed).2 ∧
      ((d.makeFolders here anchor reversed).1 = .ok () → reversed ≠ [] →
        (d.makeFolders here anchor reversed).2.hasFolder here ⟨anchor, reversed.reverse⟩
          = true) := by
  induction reversed generalizing d with
  | nil => exact ⟨Adds.refl d, fun _ nonempty => absurd rfl nonempty⟩
  | cons name above ih =>
    have nonempty : (⟨anchor, (name :: above).reverse⟩ : Path).names ≠ [] := by simp
    unfold makeFolders
    dsimp only
    split
    · next made =>
      obtain ⟨adds, folder⟩ := adds_makeFolder nonempty made
      exact ⟨adds, fun _ _ => folder⟩
    · have adds := (ih (d := d)).1
      split
      · next result =>
        rw [result] at adds
        exact ⟨adds, fun failed _ => absurd failed (by simp)⟩
      · next result =>
        rw [result] at adds
        split
        · next made =>
          obtain ⟨adds', folder⟩ := adds_makeFolder nonempty made
          exact ⟨adds.trans adds', fun _ _ => folder⟩
        · split
          · next folder => exact ⟨adds, fun _ _ => folder⟩
          · exact ⟨adds, fun failed _ => absurd failed (by simp)⟩
    · split
      · next folder => exact ⟨Adds.refl d, fun _ _ => folder⟩
      · exact ⟨Adds.refl d, fun failed _ => absurd failed (by simp)⟩

/-- Where the folder is there, nothing is made. -/
theorem makeFolders_of_hasFolder {here : Route} {anchor : Anchor} {reversed : List Text}
    (folder : reversed ≠ [] → d.hasFolder here ⟨anchor, reversed.reverse⟩ = true) :
    d.makeFolders here anchor reversed = (.ok (), d) := by
  cases reversed with
  | nil => rfl
  | cons name above =>
    have folder := folder (by simp)
    obtain ⟨r, located, found⟩ := hasFolder_iff.mp folder
    have taken : d.makeFolder here ⟨anchor, (name :: above).reverse⟩
        = .error ⟨.taken, ⟨anchor, (name :: above).reverse⟩⟩ := by
      simp only [makeFolder, located, found]
    unfold makeFolders
    simp only [taken, folder, if_true]

/-! ## Files at paths -/

variable {here : Route} {p : Path}

/-- The content of the file at a path, if a file lies there. -/
def fileAt (d : Disk) (here : Route) (p : Path) : Option Bytes := (d.contentAt here p).toOption

theorem fileAt_eq_some {content : Bytes} :
    d.fileAt here p = some content ↔
      ∃ r, d.locate here p = .ok r ∧ d.find? r = some (.file content) := by
  unfold fileAt contentAt
  cases d.locate here p with
  | error error => simp [Except.toOption]
  | ok r =>
    cases found : d.find? r with
    | none => simp [Except.toOption, found]
    | some entry => cases entry <;> simp [Except.toOption, found]

theorem contentAt_of_fileAt {content : Bytes} (h : d.fileAt here p = some content) :
    d.contentAt here p = .ok content := by
  obtain ⟨r, located, file⟩ := fileAt_eq_some.mp h
  simp only [contentAt, located, file]

theorem Same.folder (same : Same d e) : ∀ r, d.find? r = some .folder → e.find? r = some .folder :=
  fun r folder => (same r).trans folder

theorem Same.symm (same : Same d e) : Same e d := fun r => (same r).symm

theorem fileAt_congr (same : Same d e) : e.fileAt here p = d.fileAt here p := by
  apply Option.ext
  intro content
  rw [fileAt_eq_some, fileAt_eq_some]
  constructor
  · rintro ⟨r, located, file⟩
    exact ⟨r, locate_mono same.symm.folder located, (same r).symm.trans file⟩
  · rintro ⟨r, located, file⟩
    exact ⟨r, locate_mono same.folder located, (same r).trans file⟩

/-! ## Taking files away and moving them -/

/-- Taking a file away changes nothing else. -/
theorem find?_removeTree_file (tree : d.IsTree) {r : Route} (file : d.find? r ≠ some .folder)
    (q : Route) : (d.removeTree r).find? q = if q = r then none else d.find? q := by
  have nonempty : r ≠ [] := by
    rintro rfl
    exact file rfl
  rw [find?_removeTree _ _ _ nonempty]
  by_cases same : q = r
  · subst same
    simp
  · rw [if_neg same]
    split
    · next below =>
      rw [tree.below_file (List.isPrefixOf_iff_prefix.mp below) (fun h => same h.symm) file]
    · rfl

/-- What is found in entries that got other routes. -/
theorem find?_rerouted {entries : List (Route × Entry)} {f : Route → Route} {q r : Route}
    (same : ∀ entry ∈ entries, f entry.1 = q ↔ entry.1 = r) :
    ((entries.map fun e => (f e.1, e.2)).find? fun e => e.1 = q).map Prod.snd
      = (entries.find? fun e => e.1 = r).map Prod.snd := by
  induction entries with
  | nil => rfl
  | cons entry entries ih =>
    rw [List.forall_mem_cons] at same
    by_cases here : entry.1 = r
    · simp [here, here ▸ same.1.mpr here]
    · have away : f entry.1 ≠ q := fun h => here (same.1.mp h)
      rw [List.map_cons, List.find?_cons_of_neg (by simpa using away), ih same.2,
        List.find?_cons_of_neg (by simpa using here)]

/-- The route that what lies at a route has after a move. -/
def moved (source target r : Route) : Route :=
  if source <+: r then target ++ r.drop source.length else r

theorem move_entries (source target : Route) :
    (d.move source target).entries = d.entries.map fun e => (moved source target e.1, e.2) := by
  refine List.map_congr_left fun entry _ => ?_
  rw [moved]
  by_cases below : source <+: entry.1
  · rw [if_pos below, if_pos (List.isPrefixOf_iff_prefix.mpr below)]
  · rw [if_neg below, if_neg fun h => below (List.isPrefixOf_iff_prefix.mp h)]

/-- What moves to a place below the target comes from the same place below the source. -/
theorem moved_eq_append {source target r t : Route} (free : ¬target <+: r) :
    moved source target r = target ++ t ↔ r = source ++ t := by
  rw [moved]
  split
  · next below =>
    obtain ⟨u, rfl⟩ := below
    rw [List.drop_left, List.append_right_inj, List.append_right_inj]
  · next away =>
    constructor
    · rintro rfl
      exact absurd (List.prefix_append target t) free
    · rintro rfl
      exact absurd (List.prefix_append source t) away

/-- What is elsewhere than below the target and the source has not moved. -/
theorem moved_eq_elsewhere {source target r q : Route} (target' : ¬target <+: q) :
    moved source target r = q ↔ ¬source <+: r ∧ r = q := by
  rw [moved]
  split
  · next below =>
    constructor
    · rintro rfl
      exact absurd (List.prefix_append target _) target'
    · exact fun h => absurd below h.1
  · next away => exact ⟨fun same => ⟨away, same⟩, fun h => h.2⟩

/-- Moving what lies at a route and below it to a route where nothing is. -/
theorem find?_move {source target : Route} (source' : source ≠ []) (target' : target ≠ [])
    (free : ∀ entry ∈ d.entries, ¬target <+: entry.1) (q : Route) :
    (d.move source target).find? q
      = if target <+: q then d.find? (source ++ q.drop target.length)
        else if source <+: q then none else d.find? q := by
  by_cases root : q = []
  · subst root
    rw [if_neg (by simpa using target'), if_neg (by simpa using source'), find?_nil, find?_nil]
  rw [find?, if_neg root, move_entries]
  split
  · next below =>
    obtain ⟨t, rfl⟩ := below
    rw [List.drop_left, find?, if_neg (by simp [source'])]
    exact find?_rerouted fun entry member => moved_eq_append (free entry member)
  · next away =>
    split
    · next below =>
      rw [Option.map_eq_none_iff, List.find?_eq_none, List.forall_mem_map]
      rintro entry - same
      obtain ⟨outside, rfl⟩ := (moved_eq_elsewhere away).mp (of_decide_eq_true same)
      exact outside below
    · next outside =>
      rw [find?, if_neg root]
      refine find?_rerouted fun entry _ => ?_
      rw [moved_eq_elsewhere away]
      constructor
      · exact fun h => h.2
      · rintro rfl
        exact ⟨outside, rfl⟩

/-- Nothing that is left lies at or below what has been taken away. -/
theorem not_prefix_of_mem_removeTree {r : Route} {entry : Route × Entry}
    (member : entry ∈ (d.removeTree r).entries) : ¬r <+: entry.1 := by
  intro below
  have outside := (List.mem_filter.mp member).2
  rw [List.isPrefixOf_iff_prefix.mpr below] at outside
  exact absurd outside (by simp)

/-- Putting something in the place of what lies at a path is taking the latter away and moving the
former. -/
theorem eq_of_replace {here source target : Route} {p : Path}
    (located : d.locate here p = .ok target) (h : d.replace here source p = .ok e) :
    e = (d.removeTree target).move source target := by
  simp only [replace, located] at h
  split at h
  · exact absurd h (by simp)
  · split at h
    · exact absurd h (by simp)
    · exact absurd h (by simp)
    · exact absurd h (by simp)
    · split at h
      · exact absurd h (by simp)
      · exact (Except.ok.inj h).symm
    · exact (Except.ok.inj h).symm

/-- A file takes no place of a folder. -/
theorem not_folder_of_replace {here source target : Route} {p : Path} {content : Bytes}
    (file : d.find? source = some (.file content)) (located : d.locate here p = .ok target)
    (h : d.replace here source p = .ok e) : d.find? target ≠ some .folder := by
  intro folder
  simp only [replace, located, file, folder] at h
  split at h <;> exact absurd h (by simp)

/-- A file that is put in the place of another one, or where nothing is, is all that changes. -/
theorem find?_replace (tree : d.IsTree) {here source target : Route} {p : Path} {content : Bytes}
    (file : d.find? source = some (.file content)) (located : d.locate here p = .ok target)
    (ne : source ≠ target) (h : d.replace here source p = .ok e) (q : Route) :
    e.find? q = if q = target then some (.file content) else if q = source then none
      else d.find? q := by
  have noFolder := not_folder_of_replace file located h
  have source' : source ≠ [] := by
    rintro rfl
    exact absurd file (by simp)
  have target' : target ≠ [] := by
    rintro rfl
    exact noFolder rfl
  have sourceFile : d.find? source ≠ some .folder := by
    rw [file]
    simp
  rw [eq_of_replace located h, find?_move source' target' fun _ => not_prefix_of_mem_removeTree]
  simp only [find?_removeTree_file tree noFolder]
  -- In a tree nothing lies below a file, so the file is all that moves.
  by_cases atTarget : q = target
  · subst atTarget
    rw [if_pos List.prefix_rfl, if_pos rfl, List.drop_length, List.append_nil, if_neg ne, file]
  rw [if_neg atTarget, if_neg atTarget]
  by_cases below : target <+: q
  · obtain ⟨t, rfl⟩ := below
    have nonempty : t ≠ [] := by
      rintro rfl
      exact atTarget (List.append_nil target)
    have bare : d.find? (source ++ t) = none :=
      tree.below_file (List.prefix_append source t) (by simp [nonempty]) sourceFile
    have bare' : d.find? (target ++ t) = none :=
      tree.below_file (List.prefix_append target t) (by simp [nonempty]) noFolder
    rw [if_pos (List.prefix_append target t), List.drop_left, bare, bare', ite_self, ite_self]
  · rw [if_neg below]
    by_cases atSource : q = source
    · rw [if_pos (atSource ▸ List.prefix_rfl), if_pos atSource]
    · rw [if_neg atSource]
      split
      · next inside => rw [tree.below_file inside (Ne.symm atSource) sourceFile]
      · rfl

/-- Taking away a file that may be missing changes only what lies at its route. -/
theorem find?_removeFile (tree : d.IsTree) (h : d.removeFile here p = .ok e) :
    (Same d e ∧ d.fileAt here p = none) ∨
      ∃ r, d.locate here p = .ok r ∧ d.find? r ≠ some .folder ∧
        ∀ q, e.find? q = if q = r then none else d.find? q := by
  unfold removeFile at h
  split at h
  · next located =>
    obtain rfl := Except.ok.inj h
    refine .inl ⟨fun _ => rfl, ?_⟩
    simp only [fileAt, contentAt, located]
    rfl
  · exact absurd h (by simp)
  · next r located =>
    split at h
    · next free =>
      obtain rfl := Except.ok.inj h
      refine .inl ⟨fun _ => rfl, ?_⟩
      simp only [fileAt, contentAt, located, free]
      rfl
    · exact absurd h (by simp)
    · next file =>
      obtain rfl := Except.ok.inj h
      have noFolder : d.find? r ≠ some .folder := by
        rw [file]
        simp
      exact .inr ⟨r, located, noFolder, find?_removeTree_file tree noFolder⟩

/-! ## Free names -/

/-- What stands between the two texts of a numbered name: digits, which say the number. -/
theorem exists_digits (front back : Text) (n : Nat) :
    ∃ digits : Text, digits ≠ [] ∧ (∀ c ∈ digits, c.val < 0x80) ∧ Json.digitsValue digits = n ∧
      numberedName front back n = front ++ digits ++ back := by
  refine ⟨List.replicate (8 - (Text.ofNat n).length) (.scalar '0') ++ Text.ofNat n, ?_, ?_, ?_, ?_⟩
  · simp [Text.ofNat_ne_nil]
  · intro c member
    apply Json.val_lt_of_isDigit
    rcases List.mem_append.mp member with zero | digit
    · exact Json.isDigit_zeros zero
    · exact Text.isDigit_of_mem_ofNat digit
  · rw [Json.digitsValue_append, Json.digitsValue_zeros, Nat.zero_mul, Nat.zero_add,
      Json.digitsValue_ofNat]
  · simp only [numberedName, List.append_assoc]

theorem ofText_numberedName_injective {front back : Text} {m n : Nat}
    (h : Name.ofText (numberedName front back m) = Name.ofText (numberedName front back n)) :
    m = n := by
  obtain ⟨s, -, low, value, name⟩ := exists_digits front back m
  obtain ⟨t, -, low', value', name'⟩ := exists_digits front back n
  simp only [name, name', Name.ofText_append, List.append_assoc] at h
  have digits := List.append_cancel_right (List.append_cancel_left h)
  rw [← value, ← value', Name.ofText_inj_of_low low low' digits]

theorem length_numberedName (front back : Text) (n : Nat) :
    (Name.ofText front).length + (Name.ofText back).length
      < (Name.ofText (numberedName front back n)).length := by
  obtain ⟨digits, nonempty, low, -, name⟩ := exists_digits front back n
  have positive := List.length_pos_iff.mpr
    (Name.ofText_ne_nil (Name.low_ofText low).1 nonempty)
  simp only [name, Name.ofText_append, List.length_append]
  omega

/-- The route of a numbered name in a folder. -/
def numberedRoute (folder : Route) (front back : Text) (n : Nat) : Route :=
  folder ++ [Name.ofText (numberedName front back n)]

theorem exists_free (d : Disk) (folder : Route) (front back : Text) :
    ∃ n < d.entries.length + 1, d.find? (numberedRoute folder front back n) = none := by
  by_contra taken
  have member : ∀ n ∈ List.range (d.entries.length + 1),
      numberedRoute folder front back n ∈ d.entries.map Prod.fst := by
    intro n small
    cases found : d.find? (numberedRoute folder front back n) with
    | none => exact absurd ⟨n, List.mem_range.mp small, found⟩ taken
    | some entry =>
      rw [find?, if_neg (by simp [numberedRoute])] at found
      obtain ⟨other, first, -⟩ := Option.map_eq_some_iff.mp found
      have route := List.find?_some first
      rw [decide_eq_true_eq] at route
      exact List.mem_map.mpr ⟨other, List.mem_of_find?_eq_some first, route⟩
  have distinct : ((List.range (d.entries.length + 1)).map
      (numberedRoute folder front back)).Nodup := by
    refine List.Nodup.map ?_ List.nodup_range
    intro m n same
    exact ofText_numberedName_injective (by simpa [numberedRoute] using same)
  have fits := (List.subperm_of_subset distinct (by
    intro r inside
    obtain ⟨n, small, rfl⟩ := List.mem_map.mp inside
    exact member n small)).length_le
  simp only [List.length_map, List.length_range] at fits
  omega

/-- The name that is chosen is the first one that is free. -/
theorem freeName_eq (d : Disk) (folder : Route) (front back : Text) :
    ∃ n, d.freeName folder front back = numberedName front back n ∧
      d.find? (numberedRoute folder front back n) = none ∧
      ∀ m < n, d.find? (numberedRoute folder front back m) ≠ none := by
  obtain ⟨k, small, free⟩ := exists_free d folder front back
  cases found : (List.range (d.entries.length + 1)).find? fun n =>
      (d.find? (numberedRoute folder front back n)).isNone with
  | none =>
    rw [List.find?_eq_none] at found
    exact absurd (by rw [free]; rfl) (found k (List.mem_range.mpr small))
  | some n =>
    refine ⟨n, ?_, ?_, ?_⟩
    · change numberedName front back (((List.range (d.entries.length + 1)).find? fun n =>
        (d.find? (numberedRoute folder front back n)).isNone).getD 0) = _
      rw [found, Option.getD_some]
    · simpa using List.find?_some found
    · intro m less none
      obtain ⟨-, -, before⟩ := List.find?_range_eq_some.mp found
      have taken := before m less
      rw [none] at taken
      exact absurd taken (by simp)

end Grimoire.Disk
