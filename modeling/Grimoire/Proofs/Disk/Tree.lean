import Grimoire.Disk.Basic
import Mathlib.Data.List.Find
import Mathlib.Data.List.Induction

/-!
# Disks that are trees

On a disk that is a tree everything lies in a folder. Walking depends only on where folders are
(`Disk.walk_mono`), ends where the names lead (`Disk.walk_eq_follow`), and what is made on the way
keeps the disk a tree.
-/

namespace Grimoire.Disk

variable {d e : Disk}

/-- Whether everything lies in a folder. -/
def IsTree (d : Disk) : Prop :=
  ∀ r entry, r ≠ [] → d.find? r = some entry → d.find? r.dropLast = some .folder

/-- Whether the same entries lie on two disks. -/
def Same (d e : Disk) : Prop := ∀ r, e.find? r = d.find? r

@[simp]
theorem find?_nil (d : Disk) : d.find? [] = some .folder := rfl

/-- What lies above something is a folder. -/
theorem IsTree.above (tree : d.IsTree) {r s : Route} {entry : Entry} (nonempty : s ≠ [])
    (found : d.find? (r ++ s) = some entry) : d.find? r = some .folder := by
  induction s using List.reverseRecOn generalizing entry with
  | nil => exact absurd rfl nonempty
  | append_singleton s name ih =>
    have parent := tree (r ++ (s ++ [name])) entry (by simp) found
    rw [← List.append_assoc, List.dropLast_concat] at parent
    by_cases empty : s = []
    · simpa [empty] using parent
    · exact ih empty parent

theorem IsTree.above_prefix (tree : d.IsTree) {r q : Route} {entry : Entry} (le : r <+: q)
    (ne : r ≠ q) (found : d.find? q = some entry) : d.find? r = some .folder := by
  obtain ⟨s, rfl⟩ := le
  exact tree.above (by rintro rfl; simp at ne) found

/-- Below a file lies nothing. -/
theorem IsTree.below_file (tree : d.IsTree) {r q : Route} (le : r <+: q) (ne : r ≠ q)
    (file : d.find? r ≠ some .folder) : d.find? q = none := by
  cases found : d.find? q with
  | none => rfl
  | some entry => exact absurd (tree.above_prefix le ne found) file

theorem IsTree.congr (tree : d.IsTree) (same : Same d e) : e.IsTree := by
  intro r entry nonempty found
  rw [same] at found ⊢
  exact tree r entry nonempty found

/-- A disk is a tree if each of its entries lies in a folder. -/
theorem isTree_of_entries
    (parents : ∀ entry ∈ d.entries, d.find? entry.1.dropLast = some .folder) : d.IsTree := by
  intro r entry nonempty found
  rw [find?, if_neg nonempty, Option.map_eq_some_iff] at found
  obtain ⟨e, first, rfl⟩ := found
  have same := List.find?_some first
  rw [decide_eq_true_eq] at same
  exact same ▸ parents e (List.mem_of_find?_eq_some first)

/-! ## Walking -/

/-- The route behind one name. -/
def follow (r : Route) (name : Name) : Route := if name = Name.up then r.dropLast else r ++ [name]

theorem resolve_eq (here : Route) (p : Path) :
    resolve here p = (names p).foldl follow (if p.anchor = .here then here else []) := rfl

/-- The conditions and the outcome of the first step of a walk. -/
theorem walk_cons_eq_ok {r t : Route} {name : Name} {names : List Name} :
    walk d r (name :: names) = .ok t ↔
      d.find? r = some .folder ∧ (name = Name.up ∨ name.length ≤ 255) ∧
        walk d (follow r name) names = .ok t := by
  rw [walk, follow]
  cases d.find? r with
  | none => simp
  | some entry =>
    cases entry with
    | file content => simp
    | folder =>
      by_cases up : name = Name.up
      · simp [up]
      · by_cases long : 255 < name.length
        · have short : ¬name.length ≤ 255 := Nat.not_le.mpr long
          simp [up, long, short]
        · have short : name.length ≤ 255 := Nat.not_lt.mp long
          simp [up, long, short]

theorem walk_eq_follow {r t : Route} {names : List Name} (h : walk d r names = .ok t) :
    t = names.foldl follow r := by
  induction names generalizing r with
  | nil => exact (Except.ok.inj h).symm
  | cons name names ih => exact ih (walk_cons_eq_ok.mp h).2.2

/-- A walk works also where there are more folders. -/
theorem walk_mono (folders : ∀ r, d.find? r = some .folder → e.find? r = some .folder) {r t : Route}
    {names : List Name} (h : walk d r names = .ok t) : walk e r names = .ok t := by
  induction names generalizing r with
  | nil => exact h
  | cons name names ih =>
    obtain ⟨folder, size, rest⟩ := walk_cons_eq_ok.mp h
    exact walk_cons_eq_ok.mpr ⟨folders r folder, size, ih rest⟩

/-- Where a walk ends, a folder lies, or else the place is in one. -/
theorem walk_end (tree : d.IsTree) {r t : Route} {names : List Name} (nonempty : names ≠ [])
    (h : walk d r names = .ok t) :
    d.find? t = some .folder ∨ t ≠ [] ∧ d.find? t.dropLast = some .folder := by
  induction names generalizing r with
  | nil => exact absurd rfl nonempty
  | cons name names ih =>
    obtain ⟨folder, -, rest⟩ := walk_cons_eq_ok.mp h
    by_cases last : names = []
    · subst last
      obtain rfl : follow r name = t := Except.ok.inj rest
      rw [follow]
      split
      · by_cases root : r = []
        · subst root
          exact .inl rfl
        · exact .inl (tree r _ root folder)
      · exact .inr ⟨by simp, by rw [List.dropLast_concat]; exact folder⟩
    · exact ih last rest

end Grimoire.Disk
