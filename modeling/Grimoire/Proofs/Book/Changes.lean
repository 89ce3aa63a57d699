import Grimoire.Proofs.Book.Names
import Grimoire.Proofs.Book.Place
import Grimoire.Proofs.Book.Sample

/-!
# What calls change in a book

A book is an ordered map from identifiers to spells, with names as second keys. `Change` says what
each request does to the list of the spells, and a run of any calls changes the list in the file in
exactly this way (`Book.follows_runAll`): a call that gets through makes the change, one that does
not leaves the spells as they were.
-/

namespace Grimoire.Book

open Act Command

/-- The spells under their own identifiers. -/
def keyed (spells : List Spell) : Book := spells.map fun s => (s.id, s)

variable {spells front back : List Spell} {new old : Spell} {name key fresh : Text}

theorem values_keyed (spells : List Spell) : Entries.values (keyed spells) = spells := by
  simp [keyed, Entries.values, Function.comp_def]

theorem keys_keyed (spells : List Spell) : Entries.keys (keyed spells) = spells.map Spell.id := by
  simp [keyed, Entries.keys, Function.comp_def]

theorem IsLawful.keyed_values {book : Book} (lawful : IsLawful book) :
    keyed (Entries.values book) = book := by
  have own := lawful.own
  clear lawful
  induction book with
  | nil => rfl
  | cons e book ih =>
    rw [List.forall_mem_cons] at own
    have first : (e.2.id, e.2) = e := Prod.ext own.1.symm rfl
    rw [Entries.values, List.map_cons, keyed, List.map_cons, first]
    exact congrArg (e :: ·) (ih own.2)

theorem named?_keyed (spells : List Spell) (name : Text) :
    (keyed spells).named? name = spells.find? fun s => s.name = name := by
  rw [named?, values_keyed]

theorem find?_keyed (spells : List Spell) (key : Text) :
    Entries.find? key (keyed spells) = spells.find? fun s => s.id = key := by
  induction spells with
  | nil => rfl
  | cons s spells ih =>
    rw [keyed, List.map_cons, Entries.find?, List.find?_cons]
    by_cases same : s.id = key
    · simp [same]
    · simpa [same, keyed] using ih

/-- The first spell for which something holds. -/
theorem find?_eq_some_first {field : Spell → Text} :
    (spells.find? fun s => field s = key) = some old ↔
      ∃ front back, spells = front ++ old :: back ∧ field old = key ∧
        ∀ s ∈ front, field s ≠ key := by
  rw [List.find?_eq_some_iff_append]
  constructor
  · rintro ⟨holds, front, back, split, before⟩
    exact ⟨front, back, split, by simpa using holds, fun s member => by simpa using before s member⟩
  · rintro ⟨front, back, split, holds, before⟩
    exact ⟨by simpa using holds, front, back, split, fun s member => by simpa using before s member⟩

theorem find?_eq_none_all {field : Spell → Text} :
    (spells.find? fun s => field s = key) = none ↔ ∀ s ∈ spells, field s ≠ key := by
  simp

theorem named?_keyed_eq_none :
    (keyed spells).named? name = none ↔ ∀ s ∈ spells, s.name ≠ name := by
  rw [named?_keyed, find?_eq_none_all]

theorem notMem_keys_keyed : key ∉ Entries.keys (keyed spells) ↔ ∀ s ∈ spells, s.id ≠ key := by
  simp [keys_keyed]

theorem add_keyed_new (unused : ∀ s ∈ spells, s.id ≠ new.id) :
    add new (keyed spells) = keyed (spells ++ [new]) := by
  rw [add, Entries.put_of_notMem (notMem_keys_keyed.mpr unused)]
  simp [keyed]

theorem add_keyed_old (before : ∀ s ∈ front, s.id ≠ new.id) (same : old.id = new.id) :
    add new (keyed (front ++ old :: back)) = keyed (front ++ new :: back) := by
  have split : keyed (front ++ old :: back) = keyed front ++ (new.id, old) :: keyed back := by
    simp [keyed, same]
  rw [add, split, Entries.put_append_cons (notMem_keys_keyed.mpr before)]
  simp [keyed]

/-- In a list without an identifier twice, the identifier of a spell is nowhere else. -/
theorem ids_elsewhere (distinct : ((front ++ old :: back).map Spell.id).Nodup) :
    (∀ s ∈ front, s.id ≠ old.id) ∧ ∀ s ∈ back, s.id ≠ old.id := by
  simp only [List.map_append, List.map_cons, List.nodup_middle, List.nodup_cons, List.mem_append,
    List.mem_map, not_or, not_exists, not_and] at distinct
  exact distinct.1

theorem erase_keyed (distinct : ((front ++ old :: back).map Spell.id).Nodup) :
    Entries.erase old.id (keyed (front ++ old :: back)) = keyed (front ++ back) := by
  obtain ⟨before, behind⟩ := ids_elsewhere distinct
  have split : keyed (front ++ old :: back) = keyed front ++ (old.id, old) :: keyed back := by
    simp [keyed]
  rw [split, Entries.erase_append_cons (notMem_keys_keyed.mpr before)
    (notMem_keys_keyed.mpr behind)]
  simp [keyed]

/-- What a key means: the spell with that identifier, or else the first one with that name. -/
theorem lookUp?_keyed (distinct : (spells.map Spell.id).Nodup) :
    (keyed spells).lookUp? key = some old ↔
      ∃ front back, spells = front ++ old :: back ∧
        (old.id = key ∨
          (∀ s ∈ spells, s.id ≠ key) ∧ old.name = key ∧ ∀ s ∈ front, s.name ≠ key) := by
  rw [lookUp?, find?_keyed, named?_keyed]
  constructor
  · intro found
    split at found
    · next s identified =>
      obtain rfl := Option.some.inj found
      obtain ⟨front, back, split, same, -⟩ := find?_eq_some_first.mp identified
      exact ⟨front, back, split, .inl same⟩
    · next absent =>
      obtain ⟨front, back, split, named, before⟩ := find?_eq_some_first.mp found
      exact ⟨front, back, split, .inr ⟨find?_eq_none_all.mp absent, named, before⟩⟩
  · rintro ⟨front, back, rfl, same | ⟨absent, named, before⟩⟩
    · have before := (ids_elsewhere distinct).1
      rw [same] at before
      rw [find?_eq_some_first.mpr ⟨front, back, rfl, same, before⟩]
    · rw [find?_eq_none_all.mpr absent]
      exact find?_eq_some_first.mpr ⟨front, back, rfl, named, before⟩

/-! ## The changes -/

/-- What a request changes, given the spells that are stored: `before`, and then the ones in the
result. The candidate of an addition is what is read from its source; it is looked at under its own
identifier, or under a new one if it has none. -/
inductive Change (env : Env) (s : State) (before : List Spell) : Request → List Spell → Prop
  | create {arguments : { members : Members // (Json.obj members).isProper = true }} {new : Spell} :
      Spell.check (Request.created arguments.1 (env.freshId (s.drawn + 1))) = .valid new →
      (∀ old ∈ before, old.name ≠ new.name ∧ old.id ≠ new.id) →
      Change env s before (.create arguments) (before ++ [new])
  | append {source : Text} {force : Bool} {members : Members} {t : State} {new : Spell} :
      (Source.read source).run env s = (.ok (.obj members), t) →
      Spell.check (underOwnId (env.freshId (s.drawn + 1)) members) = .valid new →
      (∀ old ∈ before, old.name ≠ new.name ∧ old.id ≠ new.id) →
      Change env s before (.add source force) (before ++ [new])
  | overwriteNamed {source : Text} {members : Members} {t : State} {new old : Spell}
      {front back : List Spell} :
      (Source.read source).run env s = (.ok (.obj members), t) →
      before = front ++ old :: back → old.name = new.name → (∀ s ∈ front, s.name ≠ new.name) →
      Spell.check (.obj (Entries.put "id" (.str old.id) members)) = .valid new → new.id = old.id →
      Change env s before (.add source true) (front ++ new :: back)
  | overwriteIdentified {source : Text} {members : Members} {t : State} {new old : Spell}
      {front back : List Spell} :
      (Source.read source).run env s = (.ok (.obj members), t) →
      Spell.check (underOwnId (env.freshId (s.drawn + 1)) members) = .valid new →
      (∀ s ∈ before, s.name ≠ new.name) → before = front ++ old :: back → old.id = new.id →
      Change env s before (.add source true) (front ++ new :: back)
  | remove {key : Text} {old : Spell} {front back : List Spell} :
      before = front ++ old :: back →
      (old.id = key ∨ (∀ s ∈ before, s.id ≠ key) ∧ old.name = key ∧ ∀ s ∈ front, s.name ≠ key) →
      Change env s before (.remove key) (front ++ back)

/-- What is due for an addition is one of its three changes. -/
theorem change_of_add {env : Env} {s t : State} {before : List Spell} {source : Text}
    {force : Bool} {candidate : Json} (distinct : (before.map Spell.id).Nodup)
    (read : (Source.read source).run env s = (.ok candidate, t))
    (checked : Spell.check (underId (env.freshId (s.drawn + 1)) (keyed before) force candidate)
      = .valid new)
    (unforced : force = true ∨ clash? new (keyed before) = none) :
    ∃ after, add new (keyed before) = keyed after ∧
      Change env s before (.add source force) after := by
  obtain ⟨members, rfl, ⟨old, found, rfl, id, valid⟩ | ⟨free, valid⟩⟩ := underId_cases checked
  · rw [named?_keyed] at found
    obtain ⟨front, back, rfl, named, before⟩ := find?_eq_some_first.mp found
    refine ⟨_, add_keyed_old ?_ id.symm, .overwriteNamed read rfl named before valid id⟩
    rw [id]
    exact (ids_elsewhere distinct).1
  · -- Here no spell has the candidate's name: it would have given its identifier, or clashed.
    have unnamed := named?_keyed_eq_none.mp (named?_of_unforced free unforced)
    by_cases present : ∃ old ∈ before, old.id = new.id
    · obtain ⟨old, member, id⟩ := present
      obtain ⟨front, back, rfl⟩ := List.append_of_mem member
      have forced : force = true := by
        refine unforced.resolve_right fun none => ?_
        exact notMem_keys_keyed.mp (clash?_eq_none.mp none).2 old member id
      subst forced
      refine ⟨_, add_keyed_old ?_ id, .overwriteIdentified read valid unnamed rfl id⟩
      rw [← id]
      exact (ids_elsewhere distinct).1
    · have unused : ∀ old ∈ before, old.id ≠ new.id := fun old member id =>
        present ⟨old, member, id⟩
      exact ⟨_, add_keyed_new unused, .append read valid fun old member =>
        ⟨unnamed old member, unused old member⟩⟩

/-- What is due according to the program is a change. An identifier that is drawn for a new spell
has to be one that no spell has. -/
theorem change_of_due {env : Env} {s : State} {before : List Spell} {request : Request}
    {revised : Book}
    (distinct : (before.map Spell.id).Nodup)
    (unused : ∀ arguments, request = .create arguments →
      ∀ old ∈ before, old.id ≠ env.freshId (s.drawn + 1))
    (due : request.Due env s (keyed before) revised) :
    ∃ after, revised = keyed after ∧ Change env s before request after := by
  obtain ⟨plan, plans, revises⟩ := due
  cases request with
  | create arguments =>
    obtain ⟨new, checked, rfl⟩ := plans
    obtain ⟨free, -, rfl⟩ := revises
    rw [named?_keyed_eq_none] at free
    have id : env.freshId (s.drawn + 1) = new.id := by
      have found := (Spell.fields_of_check checked).1
      rw [Entries.find?_put, if_pos rfl] at found
      simpa using found
    have unused := unused arguments rfl
    rw [id] at unused
    exact ⟨_, add_keyed_new unused, .create checked fun old member =>
      ⟨free old member, unused old member⟩⟩
  | add source force =>
    obtain ⟨candidate, t, read, rfl⟩ := plans
    obtain ⟨new, checked, unforced, rfl⟩ := revises
    exact change_of_add distinct read checked unforced
  | remove key =>
    obtain rfl := plans
    obtain ⟨old, found, rfl⟩ := revises
    obtain ⟨front, back, rfl, meant⟩ := (lookUp?_keyed distinct).mp found
    exact ⟨_, erase_keyed distinct, .remove rfl meant⟩

/-- A change is what is due according to the program, except that no spell is created that cannot be
written. -/
theorem due_of_change {env : Env} {s : State} {before after : List Spell} {request : Request}
    (distinct : (before.map Spell.id).Nodup) (change : Change env s before request after) :
    request.Due env s (keyed before) (keyed after) ∨ ∃ new ∈ after, new.isWritable = false := by
  cases change with
  | @create arguments new checked unused =>
    cases writable : new.isWritable with
    | false => exact .inr ⟨new, by simp, writable⟩
    | true =>
      refine .inl ⟨_, ⟨new, checked, rfl⟩, ?_, writable,
        (add_keyed_new fun old member => (unused old member).2).symm⟩
      rw [named?_keyed_eq_none]
      exact fun old member => (unused old member).1
  | @append source force members t new read checked unused =>
    have free : (keyed before).named? new.name = none :=
      named?_keyed_eq_none.mpr fun old member => (unused old member).1
    refine .inl ⟨_, ⟨_, t, read, rfl⟩, new, ?_, .inr (clash?_eq_none.mpr ⟨free, ?_⟩),
      (add_keyed_new fun old member => (unused old member).2).symm⟩
    · rw [underId_unnamed (name_of_check_own checked) (.inl free)]
      exact checked
    · exact notMem_keys_keyed.mpr fun old member => (unused old member).2
  | @overwriteNamed source members t new old front back read split named before' checked id =>
    subst split
    have found : (keyed (front ++ old :: back)).named? new.name = some old := by
      rw [named?_keyed]
      exact find?_eq_some_first.mpr ⟨front, back, rfl, named, before'⟩
    refine .inl ⟨_, ⟨_, t, read, rfl⟩, new, ?_, .inl rfl, (add_keyed_old ?_ id.symm).symm⟩
    · rw [underId_named (name_of_check_put checked) found]
      exact checked
    · rw [id]
      exact (ids_elsewhere distinct).1
  | @overwriteIdentified source members t new old front back read checked unnamed split id =>
    subst split
    have free : (keyed (front ++ old :: back)).named? new.name = none :=
      named?_keyed_eq_none.mpr unnamed
    refine .inl ⟨_, ⟨_, t, read, rfl⟩, new, ?_, .inl rfl, (add_keyed_old ?_ id).symm⟩
    · rw [underId_unnamed (name_of_check_own checked) (.inl free)]
      exact checked
    · rw [← id]
      exact (ids_elsewhere distinct).1
  | @remove key old front back split meant =>
    subst split
    exact .inl ⟨_, rfl, old, (lookUp?_keyed distinct).mpr ⟨front, back, rfl, meant⟩,
      (erase_keyed distinct).symm⟩

/-! ## Calls -/

/-- What someone asks of a book. -/
inductive Order where
  | revise (request : Request)
  | clear (isSure : Bool)

/-- The part of the program that follows an order. -/
def Order.act (place : Option Text) : Order → Act Unit
  | revise request => request.act place
  | clear isSure => do
    let _ ← runClear isSure place
    return ()

/-- All that the program does before it reports: whether the order was followed. -/
def Order.commit (place : Option Text) : Order → Act Bool
  | revise request => do
    let _ ← request.commit place
    return true
  | clear isSure => commitClear isSure place

/-- An order to a process with an environment and an input of its own. -/
structure Call where
  env : Env
  input : Bytes
  order : Order

namespace Call

/-- The state with the input of a call. -/
def start (c : Call) (s : State) : State := { s with input := c.input }

/-- The state after a call. -/
def run (place : Option Text) (c : Call) (s : State) : State :=
  ((c.order.act place).run c.env (c.start s)).2

/-- Whether a call gets through all that comes before the report. -/
def IsDone (place : Option Text) (c : Call) (s : State) : Prop :=
  ((c.order.commit place).run c.env (c.start s)).1 = .ok true

end Call

/-- The state after calls. -/
def runAll (place : Option Text) (calls : List Call) (s : State) : State :=
  calls.foldl (fun s c => c.run place s) s

/-- Whether loading the file at a path gives these spells, all of which have wire forms, to each reader
with one of these rooms. -/
structure Holds (rooms : Set Json.Room) (d : Disk) (here : Route) (p : Path) (spells : List Spell) :
    Prop where
  loads : ∃ reading, (∀ room ∈ rooms, loaded room (d.contentAt here p) = .ok reading) ∧
    Entries.values reading.book = spells
  wirable : ∀ s ∈ spells, s.isWirable = true

/-- What a call may do to the spells: it makes a change, or leaves them as they are. It may leave
them only if there is no change to be made, or if the changed book cannot be saved, or if a spell has an
integer with too many digits in a member of a schema that the wire form drops. -/
def Call.Follows (place : Option Text) (p : Path) (c : Call) (s : State)
    (before after : List Spell) :
    Prop :=
  match c.order with
  | .revise request =>
    (c.IsDone place s ∧ ∃ changed, Change c.env (c.start s) before request changed ∧
      after.map Spell.wire = changed.map Spell.wire) ∨
    (¬c.IsDone place s ∧ after = before ∧
      ∀ changed, Change c.env (c.start s) before request changed →
      (∃ t failure u, t.disk = s.disk ∧
        (saveTo p (keyed changed)).run c.env t = (.error failure, u)) ∨
      ∃ new ∈ changed, new.isWritable = false ∧ new.normal.isWritable = true)
  | .clear _ => (c.IsDone place s ∧ after = []) ∨ (¬c.IsDone place s ∧ after = before)

variable {place : Option Text} {here : Route} {p : Path} {rooms : Set Json.Room} {room : Json.Room}

theorem Holds.keyed {d : Disk} (holds : Holds rooms d here p spells) (known : room ∈ rooms) :
    ∃ rejected, loaded room (d.contentAt here p) = .ok ⟨keyed spells, rejected⟩ ∧
      IsLawful (Book.keyed spells) := by
  obtain ⟨⟨⟨book, rejected⟩, loads, rfl⟩, -⟩ := holds
  have lawful := isLawful_loaded (loads room known)
  rw [lawful.keyed_values]
  exact ⟨rejected, loads room known, lawful⟩

theorem Holds.unique {d : Disk} {others : List Spell} (holds : Holds rooms d here p spells)
    (other : Holds rooms d here p others) (known : room ∈ rooms) : spells = others := by
  obtain ⟨⟨reading, loads, rfl⟩, -⟩ := holds
  obtain ⟨⟨reading', loads', rfl⟩, -⟩ := other
  rw [Except.ok.inj ((loads room known).symm.trans (loads' room known))]

theorem Holds.congr {d e : Disk} (holds : Holds rooms d here p spells)
    (same : e.fileAt here p = d.fileAt here p) : Holds rooms e here p spells := by
  obtain ⟨reading, loads, spells⟩ := holds.loads
  exact ⟨⟨reading, fun room known => (loaded_congr same).trans (loads room known), spells⟩,
    holds.wirable⟩

/-- What loads after saving: the spells that were saved, in their normal form. -/
theorem holds_saved {env : Env} {s u : State} {book : Book} (lawful : IsLawful book)
    (ready : s.disk.IsReady env.here p) (saved : (saveTo p book).run env s = (.ok (), u)) :
    u.disk.IsReady env.here p ∧ Holds rooms u.disk env.here p (Entries.values (normal book)) := by
  obtain ⟨ready', t, bytes, texted, encoded, content⟩ := isReady_saved ready saved
  have loads (room : Json.Room) :
      loaded room (u.disk.contentAt env.here p) = .ok ⟨normal book, []⟩ := by
    rw [loaded_contentAt, content]
    exact loaded_of_text lawful texted encoded room
  refine ⟨ready', ⟨_, fun room _ => loads room, rfl⟩, fun s' member => ?_⟩
  obtain ⟨e, inside, rfl⟩ := List.mem_map.mp member
  obtain ⟨e', inside', rfl⟩ := List.mem_map.mp inside
  exact Spell.isWirable_normal ((text_eq_ok texted).1 e' inside')

/-- A spell whose normal form cannot be written cannot be saved. -/
theorem run_saveTo_unwritable {new : Spell} (member : new ∈ spells)
    (digits : new.normal.isWritable = false)
    (env : Env) (s : State) :
    ∃ failure u, (saveTo p (keyed spells)).run env s = (.error failure, u) := by
  rcases outcome : (saveTo p (keyed spells)).run env s with ⟨failure | ⟨⟩, u⟩
  · exact ⟨failure, u, rfl⟩
  · obtain ⟨-, bytes, writes⟩ := run_saveTo_eq_ok outcome
    obtain ⟨t, texted, -⟩ := writes.text
    obtain ⟨-, writable, -⟩ := text_eq_ok texted
    have inside : new.wire ∈ wires (keyed spells) := by
      rw [wires, values_keyed]
      exact List.mem_map_of_mem member
    have all := Spell.isWritable_of_wire (Json.isWritable_item writable inside)
    exact absurd (digits.symm.trans all) (by simp)

/-- What a call that revises does to the disk. -/
theorem Request.run_act (request : Request) {env : Env} {s : State} {before : List Spell}
    (sees : Sees place here p env) (known : env.rooms.book ∈ rooms) (ready : s.disk.IsReady here p)
    (holds : Holds rooms s.disk here p before) :
    let t := ((request.act place).run env s).2
    t.disk.IsReady here p ∧ ∃ after, Holds rooms t.disk here p after ∧
      ((∃ p' u changed, (request.commit place).run env s = (.ok p', u) ∧
          request.Due env s (keyed before) changed ∧
          after.map Spell.wire = (Entries.values changed).map Spell.wire) ∨
        ∃ failure u, (request.commit place).run env s = (.error failure, u) ∧ after = before ∧
          ∀ changed, request.Due env s (keyed before) changed →
            ∃ t' failure' u', t'.disk = s.disk ∧
              (saveTo p changed).run env t' = (.error failure', u')) := by
  intro t
  have same : t.disk = ((request.commit place).run env s).2.disk := request.sameDisk_act place env s
  obtain ⟨rfl, rfl⟩ := sees
  obtain ⟨rejected, loads, lawful⟩ := holds.keyed known
  -- The report comes last and leaves the disk alone, so what has been committed decides.
  rw [same]
  rcases request.run_commit loads with ⟨revised, v, due, kept, commits⟩ |
    ⟨failure, v, fails, kept, none⟩
  · rw [commits]
    rcases saves : (save place revised).run env v with ⟨failure | p', u⟩
    · obtain ⟨ready', unchanged⟩ := isReady_unsaved (kept.symm ▸ ready) (run_save_eq_error.mp saves)
      rw [kept] at unchanged
      refine ⟨ready', before, holds.congr unchanged,
        .inr ⟨failure, u, rfl, rfl, fun changed due' => ?_⟩⟩
      rw [due'.unique due]
      exact ⟨v, failure, u, kept, run_save_eq_error.mp saves⟩
    · obtain ⟨rfl, saved⟩ := run_save_eq_ok.mp saves
      obtain ⟨plan, plans, revises⟩ := due
      obtain ⟨ready', holds'⟩ :=
        holds_saved (lawful.revises plans.isSound revises) (kept.symm ▸ ready) saved
      exact ⟨ready', _, holds', .inl ⟨_, u, revised, rfl, ⟨plan, plans, revises⟩,
        wires_normal revised⟩⟩
  · rw [fails]
    refine ⟨kept.symm ▸ ready, before, kept.symm ▸ holds,
      .inr ⟨failure, v, rfl, rfl, fun changed due => ?_⟩⟩
    exact absurd due (none changed)

/-- What a call does to the spells, provided that no spell has the identifier that is drawn for a
new one. -/
theorem Call.follows (c : Call) {s : State} {before : List Spell} (sees : Sees place here p c.env)
    (known : c.env.rooms.book ∈ rooms) (ready : s.disk.IsReady here p)
    (holds : Holds rooms s.disk here p before) :
    (c.run place s).disk.IsReady here p ∧
      ∃ after, Holds rooms (c.run place s).disk here p after ∧
      ((∀ arguments, c.order = .revise (.create arguments) →
        ∀ old ∈ before, old.id ≠ c.env.freshId (s.drawn + 1)) →
        c.Follows place p s before after) := by
  have distinct : (before.map Spell.id).Nodup := by
    obtain ⟨rejected, -, lawful⟩ := holds.keyed known
    rw [← keys_keyed]
    exact lawful.distinct
  obtain ⟨env, input, order⟩ := c
  cases order with
  | revise request =>
    obtain ⟨ready', after, holds', follows⟩ :=
      request.run_act (s := { s with input }) sees known ready holds
    refine ⟨ready', after, holds', fun unused => ?_⟩
    rcases follows with ⟨p', u, changed, commits, due, same⟩ | ⟨failure, u, fails, rfl, unsaved⟩
    · have unused' : ∀ arguments, request = .create arguments →
          ∀ old ∈ before, old.id ≠ env.freshId (s.drawn + 1) :=
        fun arguments creates => unused arguments (congrArg Order.revise creates)
      obtain ⟨changed', rfl, change⟩ := change_of_due (s := { s with input }) distinct unused' due
      rw [values_keyed] at same
      refine .inl ⟨?_, changed', change, same⟩
      simp only [IsDone, Order.commit, start, run_bind, commits]
      rfl
    · refine .inr ⟨?_, rfl, fun changed change => ?_⟩
      · simp only [IsDone, Order.commit, start, run_bind, fails]
        simp
      -- A change that is not due is the creation of a spell that cannot be rendered.
      · rcases due_of_change distinct change with due | ⟨new, member, digits⟩
        · exact .inl (unsaved (keyed changed) due)
        · cases normal : new.normal.isWritable with
          | true => exact .inr ⟨new, member, digits, normal⟩
          | false =>
            obtain ⟨failure', u', fails'⟩ := run_saveTo_unwritable (p := p) member normal env s
            exact .inl ⟨s, failure', u', rfl, fails'⟩
  | clear isSure =>
    obtain ⟨ready', cleared⟩ := isReady_runClear (s := { s with input }) isSure sees ready
    have last : (Call.run place ⟨env, input, .clear isSure⟩ s).disk
        = ((runClear isSure place).run env { s with input }).2.disk :=
      SameDisk.followed (fun _ => .pure ()) env { s with input }
    rw [last]
    rcases cleared with ⟨done, none, plain⟩ | ⟨undone, same⟩
    · refine ⟨ready', [], ⟨⟨⟨[], []⟩, fun room _ => ?_, rfl⟩, by simp⟩, fun _ => .inl ⟨done, rfl⟩⟩
      rw [loaded_contentAt, none, plain]
    · exact ⟨ready', before, holds.congr same, fun _ => .inr ⟨undone, rfl⟩⟩

/-- A run of calls keeps the file in reach of its path and full of spells with wire forms. -/
theorem holds_run {calls : List Call} {s : State} (sees : ∀ c ∈ calls, Sees place here p c.env)
    (known : ∀ c ∈ calls, c.env.rooms.book ∈ rooms) (ready : s.disk.IsReady here p)
    (holds : Holds rooms s.disk here p spells) :
    (runAll place calls s).disk.IsReady here p ∧
      ∃ after, Holds rooms (runAll place calls s).disk here p after := by
  induction calls generalizing s spells with
  | nil => exact ⟨ready, spells, holds⟩
  | cons c calls ih =>
    rw [List.forall_mem_cons] at sees known
    obtain ⟨ready', after, holds', -⟩ := c.follows sees.1 known.1 ready holds
    exact ih sees.2 known.2 ready' holds'

/-- In a run of any calls, from a file that loads as spells with wire forms or from a missing file
on, each call changes the spells in the file as it should, and in no other way. The calls may have
different rooms for what they read. -/
theorem follows_runAll {calls : List Call} {c : Call} {s : State}
    (sees : ∀ c' ∈ calls ++ [c], Sees place here p c'.env)
    (known : ∀ c' ∈ calls ++ [c], c'.env.rooms.book ∈ rooms) (ready : s.disk.IsReady here p)
    (holds : Holds rooms s.disk here p spells)
    (unused : ∀ arguments, c.order = .revise (.create arguments) →
      ∀ before, Holds rooms (runAll place calls s).disk here p before →
        ∀ old ∈ before, old.id ≠ c.env.freshId ((runAll place calls s).drawn + 1)) :
    ∃ before after, Holds rooms (runAll place calls s).disk here p before ∧
      Holds rooms (runAll place (calls ++ [c]) s).disk here p after ∧
      c.Follows place p (runAll place calls s) before after := by
  have sees' : ∀ c' ∈ calls, Sees place here p c'.env := fun c' member =>
    sees c' (List.mem_append_left _ member)
  have known' : ∀ c' ∈ calls, c'.env.rooms.book ∈ rooms := fun c' member =>
    known c' (List.mem_append_left _ member)
  obtain ⟨ready', before, holds'⟩ := holds_run sees' known' ready holds
  obtain ⟨-, after, holds'', follows⟩ := c.follows (sees c (by simp)) (known c (by simp)) ready' holds'
  have last : runAll place (calls ++ [c]) s = c.run place (runAll place calls s) := by
    simp [runAll]
  rw [last]
  exact ⟨before, after, holds', holds'', follows fun arguments creates =>
    unused arguments creates before holds'⟩

/-- The file of spells is cleared, and then the sample spell is created. -/
theorem follows_runAll_sample :
    ∃ before after, Holds {Env.sample.rooms.book}
        (runAll (some "spells.json") [⟨Env.sample, [], .clear true⟩] State.empty).disk []
        (Path.ofText "spells.json") before ∧
      Holds {Env.sample.rooms.book} (runAll (some "spells.json") ([⟨Env.sample, [], .clear true⟩]
        ++ [⟨Env.sample, [], .revise .sample⟩]) State.empty).disk [] (Path.ofText "spells.json")
        after ∧
      Call.Follows (some "spells.json") (Path.ofText "spells.json")
        ⟨Env.sample, [], .revise .sample⟩
        (runAll (some "spells.json") [⟨Env.sample, [], .clear true⟩] State.empty) before after := by
  have ready : State.empty.disk.IsReady [] (Path.ofText "spells.json") :=
    ⟨State.isTree_empty, fun content found => by cases found⟩
  have nothing : Holds {Env.sample.rooms.book} State.empty.disk [] (Path.ofText "spells.json") [] :=
    ⟨⟨⟨[], []⟩, fun _ _ => rfl, rfl⟩, by simp⟩
  refine follows_runAll ?_ ?_ ready nothing ?_
  · intro c member
    simp only [List.cons_append, List.nil_append, List.mem_cons, List.not_mem_nil, or_false]
      at member
    rcases member with rfl | rfl <;> exact ⟨rfl, rfl⟩
  · intro c member
    simp only [List.cons_append, List.nil_append, List.mem_cons, List.not_mem_nil, or_false]
      at member
    rcases member with rfl | rfl <;> rfl
  · intro arguments _ before holds old member
    have disk : (runAll (some "spells.json") [⟨Env.sample, [], .clear true⟩] State.empty).disk
        = State.empty.disk := by decide +kernel
    rw [disk] at holds
    obtain rfl := holds.unique nothing rfl
    exact absurd member (by simp)

end Grimoire.Book
