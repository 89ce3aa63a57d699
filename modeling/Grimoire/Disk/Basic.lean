import Grimoire.Disk.Name
import Grimoire.Disk.Path
import Grimoire.Text.Quoted

/-!
# Disks

A disk holds files and folders under routes, which are the names on the way from the root. A path is
located by walking along its names: what is passed has to be a folder. A path with a name that has no
bytes, or with a zero in it, cannot be asked for. An operation on a disk either gives the new disk or says
what stands in its way, and then nothing has changed.

Main statements: `Disk.find?_put` and `Disk.find?_removeTree` (what the two changes do to the view by
route).
-/

namespace Grimoire

/-- The names on the way from the root. -/
abbrev Route := List Name

/-- What lies at the end of a route. -/
inductive Entry where
  | file (content : Bytes)
  | folder
  deriving DecidableEq

/-- Files and folders by route. The root itself is always a folder. -/
structure Disk where
  entries : List (Route × Entry)
  deriving DecidableEq

/-- What stands in the way of an operation. -/
inductive Obstacle where
  | notFound
  | isFolder
  | notFolder
  | taken
  | tooLong
  | busy
  | notEmpty
  | nul
  | unencodable
  deriving DecidableEq

namespace Obstacle

/-- The wording of an obstacle. -/
def message : Obstacle → Text
  | notFound => "No such file or directory"
  | isFolder => "Is a directory"
  | notFolder => "Not a directory"
  | taken => "File exists"
  | tooLong => "File name too long"
  | busy => "Device or resource busy"
  | notEmpty => "Directory not empty"
  | nul => "embedded null byte"
  | unencodable => "surrogates not allowed"

/-- The number of an obstacle; a path that cannot be asked for has none. -/
def number? : Obstacle → Option Nat
  | notFound => some 2
  | isFolder => some 21
  | notFolder => some 20
  | taken => some 17
  | tooLong => some 36
  | busy => some 16
  | notEmpty => some 39
  | nul | unencodable => none

end Obstacle

/-- An obstacle and the path that was asked for. -/
structure DiskError where
  obstacle : Obstacle
  path : Path
  deriving DecidableEq

/-- The wording of an error, with the number of the obstacle and the path. -/
def DiskError.message (e : DiskError) : Text :=
  match e.obstacle, e.obstacle.number? with
  | .unencodable, _ => (Name.error e.path.text).message
  | obstacle, none => obstacle.message
  | obstacle, some n =>
    "[Errno " ++ Text.ofNat n ++ "] " ++ obstacle.message ++ ": " ++ Text.quoted e.path.text

namespace Disk

/-- The entry at a route. -/
def find? (d : Disk) (r : Route) : Option Entry :=
  if r = [] then some .folder else (d.entries.find? fun e => e.1 = r).map Prod.snd

/-- Puts an entry at a route. -/
def put (d : Disk) (r : Route) (e : Entry) : Disk :=
  if d.entries.any fun old => old.1 = r then
    ⟨d.entries.map fun old => if old.1 = r then (r, e) else old⟩
  else ⟨d.entries ++ [(r, e)]⟩

/-- Takes away what lies at a route and below it. -/
def removeTree (d : Disk) (r : Route) : Disk := ⟨d.entries.filter fun e => !r.isPrefixOf e.1⟩

/-- Puts what lies at a route and below it at another route. -/
def move (d : Disk) (source target : Route) : Disk :=
  ⟨d.entries.map fun e =>
    if source.isPrefixOf e.1 then (target ++ e.1.drop source.length, e.2) else e⟩

/-- Whether something lies below a route. -/
def hasBelow (d : Disk) (r : Route) : Bool := d.entries.any fun e => r.isPrefixOf e.1 && e.1 ≠ r

/-- The number of bytes of a text. -/
def nameSize (t : Text) : Nat := (Name.ofText t).length

/-- Walks from a route along names. All that is passed has to be a folder; the last name may be free. -/
def walk (d : Disk) (r : Route) : List Name → Except Obstacle Route
  | [] => .ok r
  | name :: names =>
    match d.find? r with
    | none => .error .notFound
    | some (.file _) => .error .notFolder
    | some .folder =>
      if name = Name.up then walk d r.dropLast names
      else if 255 < name.length then .error .tooLong
      else walk d (r ++ [name]) names

/-- Why a path cannot be asked for. -/
def refusal? (p : Path) : Option Obstacle :=
  if !p.names.all Name.isNameable then some .unencodable
  else if p.names.any (·.contains (.scalar '\x00')) then some .nul
  else none

/-- The names of a path as a disk keeps them. -/
def names (p : Path) : List Name := p.names.map Name.ofText

/-- The route of a path, seen from the folder that one is in. -/
def locate (d : Disk) (here : Route) (p : Path) : Except DiskError Route :=
  if let some o := refusal? p then .error ⟨o, p⟩
  else if 4095 < nameSize p.text then .error ⟨.tooLong, p⟩
  else
    match walk d (if p.anchor = .here then here else []) (names p) with
    | .ok r => .ok r
    | .error o => .error ⟨o, p⟩

/-- The content of a file. -/
def contentAt (d : Disk) (here : Route) (p : Path) : Except DiskError Bytes :=
  match d.locate here p with
  | .error e => .error e
  | .ok r =>
    match d.find? r with
    | none => .error ⟨.notFound, p⟩
    | some .folder => .error ⟨.isFolder, p⟩
    | some (.file content) => .ok content

/-- Whether something lies at a path. Only a name that is too long is an error. -/
def has (d : Disk) (here : Route) (p : Path) : Except DiskError Bool :=
  match d.locate here p with
  | .ok r => .ok (d.find? r).isSome
  | .error ⟨.tooLong, p⟩ => .error ⟨.tooLong, p⟩
  | .error _ => .ok false

/-- Whether a folder lies at a path. -/
def hasFolder (d : Disk) (here : Route) (p : Path) : Bool :=
  match d.locate here p with
  | .ok r => d.find? r = some .folder
  | .error _ => false

/-- Writes a file, a new one or over an old one. -/
def putContent (d : Disk) (here : Route) (p : Path) (content : Bytes) : Except DiskError Disk :=
  match d.locate here p with
  | .error e => .error e
  | .ok r =>
    match d.find? r with
    | some .folder => .error ⟨.isFolder, p⟩
    | _ => .ok (d.put r (.file content))

/-- Makes a new folder. -/
def makeFolder (d : Disk) (here : Route) (p : Path) : Except DiskError Disk :=
  match d.locate here p with
  | .error e => .error e
  | .ok r =>
    match d.find? r with
    | some _ => .error ⟨.taken, p⟩
    | none => .ok (d.put r .folder)

/-- Makes a folder and what is missing above it; a folder that is there is left as it is. What was made
above stays also where the rest fails. The names are given from the last one on. -/
def makeFolders (d : Disk) (here : Route) (anchor : Anchor) :
    (reversed : List Text) → Except DiskError Unit × Disk
  | [] => (.ok (), d)
  | name :: above =>
    let p : Path := ⟨anchor, (name :: above).reverse⟩
    match d.makeFolder here p with
    | .ok d => (.ok (), d)
    | .error ⟨.notFound, _⟩ =>
      match makeFolders d here anchor above with
      | (.error e, d) => (.error e, d)
      | (.ok _, d) =>
        match d.makeFolder here p with
        | .ok d => (.ok (), d)
        | .error e => if d.hasFolder here p then (.ok (), d) else (.error e, d)
    | .error e => if d.hasFolder here p then (.ok (), d) else (.error e, d)

/-- Takes away a file, if it is there. -/
def removeFile (d : Disk) (here : Route) (p : Path) : Except DiskError Disk :=
  match d.locate here p with
  | .error ⟨.notFound, _⟩ => .ok d
  | .error e => .error e
  | .ok r =>
    match d.find? r with
    | none => .ok d
    | some .folder => .error ⟨.isFolder, p⟩
    | some (.file _) => .ok (d.removeTree r)

/-- Whether a path ends in a name that can be given away. -/
def endsInName (p : Path) : Bool := p.name ≠ [] && p.name ≠ ".."

/-- Puts the file or folder at a route in the place of what lies at a path: a file replaces a file, a
folder an empty folder. -/
def replace (d : Disk) (here : Route) (source : Route) (p : Path) : Except DiskError Disk :=
  match d.locate here p with
  | .error e => .error e
  | .ok target =>
    if !endsInName p then .error ⟨.busy, p⟩
    else
      match d.find? source, d.find? target with
      | none, _ => .error ⟨.notFound, p⟩
      | some (.file _), some .folder => .error ⟨.isFolder, p⟩
      | some .folder, some (.file _) => .error ⟨.notFolder, p⟩
      | some .folder, some .folder =>
        if d.hasBelow target then .error ⟨.notEmpty, p⟩
        else .ok ((d.removeTree target).move source target)
      | _, _ => .ok ((d.removeTree target).move source target)

/-- A name with a number on eight places between two texts. -/
def numberedName (front back : Text) (n : Nat) : Text :=
  let digits := Text.ofNat n
  front ++ List.replicate (8 - digits.length) (CodePoint.scalar '0') ++ digits ++ back

/-- A name between two texts that is free in a folder: the one with the first number that is. -/
def freeName (d : Disk) (folder : Route) (front back : Text) : Text :=
  let isFree (n : Nat) : Bool :=
    (d.find? (folder ++ [Name.ofText (numberedName front back n)])).isNone
  numberedName front back (((List.range (d.entries.length + 1)).find? isFree).getD 0)

/-- The route of a path if two dots take away the name before them, whatever lies there. -/
def resolve (here : Route) (p : Path) : Route :=
  (names p).foldl (fun (r : Route) (name : Name) => if name = Name.up then r.dropLast else r ++ [name])
    (if p.anchor = .here then here else [])

/-- The path from the root that a path is if two dots take away the name before them. -/
def absolute (here : Route) (p : Path) : Path :=
  ⟨.root, p.names.foldl (fun (ns : List Text) (name : Text) =>
      if name = ".." then ns.dropLast else ns ++ [name])
    (if p.anchor = .here then here.map Name.text else [])⟩

/-- Why a path cannot be asked for, name by name, with the path up to the name that is at fault. -/
def refusedOn? (p : Path) : Option DiskError :=
  (List.range p.names.length).findSome? fun n =>
    let way : Path := ⟨p.anchor, p.names.take (n + 1)⟩
    (refusal? way).map fun o => ⟨o, way⟩

/-- The path of a route. -/
def pathOf (r : Route) : Path := ⟨.root, r.map Name.text⟩

theorem find?_put (d : Disk) (r s : Route) (e : Entry) (hr : r ≠ []) :
    (d.put r e).find? s = if s = r then some e else d.find? s := by
  by_cases hs : s = []
  · subst hs
    simp [find?, Ne.symm hr]
  · simp only [find?, hs, if_false, put]
    split
    · rename_i hany
      rw [List.find?_map, Option.map_map]
      by_cases hsr : s = r
      · subst hsr
        simp only [if_true]
        have hpred : ((fun e : Route × Entry => decide (e.1 = s)) ∘ fun old =>
            if old.1 = s then (s, e) else old) = fun old => decide (old.1 = s) := by
          funext old
          by_cases h : old.1 = s <;> simp [h]
        rw [hpred]
        cases hf : d.entries.find? fun old => decide (old.1 = s) with
        | none =>
          rw [List.find?_eq_none] at hf
          obtain ⟨old, hmem, hold⟩ := List.any_eq_true.mp hany
          exact absurd hold (hf old hmem)
        | some old =>
          have hold := List.find?_some hf
          simp only [decide_eq_true_eq] at hold
          simp [hold]
      · simp only [hsr, if_false]
        have hpred : ((fun e : Route × Entry => decide (e.1 = s)) ∘ fun old =>
            if old.1 = r then (r, e) else old) = fun old => decide (old.1 = s) := by
          funext old
          by_cases h : old.1 = r
          · simp [h, Ne.symm hsr]
          · simp [h]
        rw [hpred]
        cases hf : d.entries.find? fun old => decide (old.1 = s) with
        | none => rfl
        | some old =>
          have hold := List.find?_some hf
          simp only [decide_eq_true_eq] at hold
          have : ¬old.1 = r := fun h => hsr (hold.symm.trans h)
          simp [this]
    · rename_i hany
      rw [List.find?_append]
      by_cases hsr : s = r
      · subst hsr
        have hnone : d.entries.find? (fun old => decide (old.1 = s)) = none := by
          rw [List.find?_eq_none]
          intro old hmem hold
          exact hany (List.any_eq_true.mpr ⟨old, hmem, hold⟩)
        simp [hnone]
      · have : ¬r = s := fun h => hsr h.symm
        simp [hsr, this]

theorem find?_removeTree (d : Disk) (r s : Route) (hr : r ≠ []) :
    (d.removeTree r).find? s = if r.isPrefixOf s then none else d.find? s := by
  by_cases hs : s = []
  · subst hs
    cases r with
    | nil => exact absurd rfl hr
    | cons a r => simp [find?]
  · simp only [find?, hs, if_false, removeTree, List.find?_filter]
    by_cases hp : r.isPrefixOf s = true
    · have hnone : d.entries.find? (fun e => !r.isPrefixOf e.1 && decide (e.1 = s)) = none := by
        rw [List.find?_eq_none]
        intro e _ he
        simp only [Bool.and_eq_true, decide_eq_true_eq] at he
        rw [he.2, hp] at he
        exact absurd he.1 (by decide)
      simp [hp, hnone]
    · have hpred : (fun e : Route × Entry => !r.isPrefixOf e.1 && decide (e.1 = s))
          = fun e => decide (e.1 = s) := by
        funext e
        by_cases h : e.1 = s
        · simp [h, hp]
        · simp [h]
      simp [hp, hpred]

end Disk

end Grimoire
