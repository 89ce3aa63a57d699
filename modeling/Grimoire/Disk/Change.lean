import Grimoire.Disk.Basic

/-!
# Changes of a disk

What has to be done to a disk so that it becomes another one: things are taken away, then folders are
made and files written, each after the folder that it lies in.

Main statement: `Disk.changes_self` (a disk that stays as it is needs no change).
-/

namespace Grimoire.Disk

/-- One change. -/
inductive Change where
  | remove (r : Route)
  | makeFolder (r : Route)
  | putContent (r : Route) (content : Bytes)
  deriving DecidableEq

/-- The change that puts an entry at a route. -/
def Change.ofEntry : Route × Entry → Change
  | (r, .folder) => .makeFolder r
  | (r, .file content) => .putContent r content

/-- Whether an entry has to go before another disk can be reached. -/
def mustGo (new : Disk) (e : Route × Entry) : Bool :=
  match e.2, new.find? e.1 with
  | .folder, some .folder | .file _, some (.file _) => false
  | _, _ => true

/-- The changes that lead from a disk to another one. -/
def changes (old new : Disk) : List Change :=
  let gone := old.entries.filter (mustGo new)
  let fresh := new.entries.filter fun e => old.find? e.1 ≠ some e.2
  gone.map (fun e => .remove e.1)
    ++ (fresh.mergeSort fun e e' => e.1.length ≤ e'.1.length).map Change.ofEntry

theorem changes_self {d : Disk} (h : ∀ e ∈ d.entries, d.find? e.1 = some e.2) :
    changes d d = [] := by
  have hgone : d.entries.filter (mustGo d) = [] := by
    rw [List.filter_eq_nil_iff]
    intro e he
    rw [mustGo, h e he]
    rcases e with ⟨r, _ | _⟩ <;> simp
  have hfresh : d.entries.filter (fun e => decide (d.find? e.1 ≠ some e.2)) = [] := by
    rw [List.filter_eq_nil_iff]
    intro e he
    simp [h e he]
  simp only [changes, hgone, hfresh, List.map_nil, List.mergeSort_nil, List.append_nil]

end Grimoire.Disk
