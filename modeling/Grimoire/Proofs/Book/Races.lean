import Grimoire.Proofs.Book.Names
import Grimoire.Proofs.Book.Place
import Grimoire.Proofs.Book.Sample

/-!
# Requests that race

Any number of requests run at once. Each loads the book in one step and writes a whole book in a
later one, and in between the others may have written too; clearing is one step. Whatever the order
of the steps, the file is missing or holds a book in which every name names one spell
(`Race.file_of_reachable`). Writes may be lost, but no step can bring in a second spell with a name
or an identifier, because every book in flight is such a book itself (`Race.IsSafe`).
-/

namespace Grimoire.Book

open Act Command

/-- The disk, and the requests that have loaded the book and not yet written, each with what it has
loaded. -/
structure Race where
  disk : Disk
  flights : List (Plan × Book)

namespace Race

variable {place : Option Text} {here : Route} {p : Path}

/-- One step of one of the processes. Only the disk is common to them: the rest of the state is the
one of the process that makes the step. -/
inductive Step (place : Option Text) (here : Route) (p : Path) : Race → Race → Prop
  | begin {request : Request} {env : Env} {s t : State} {flight : Plan × Book}
      {flights : List (Plan × Book)} : Sees place here p env →
      (request.begin place).run env s = (.ok flight, t) →
      Step place here p ⟨s.disk, flights⟩ ⟨t.disk, flight :: flights⟩
  | refuse {request : Request} {env : Env} {s t : State} {failure : Failure}
      {flights : List (Plan × Book)} : Sees place here p env →
      (request.begin place).run env s = (.error failure, t) →
      Step place here p ⟨s.disk, flights⟩ ⟨t.disk, flights⟩
  | finish {plan : Plan} {book : Book} {env : Env} {s t : State} {outcome : Except Failure Path}
      {front back : List (Plan × Book)} : Sees place here p env →
      (plan.finish place book).run env s = (outcome, t) →
      Step place here p ⟨s.disk, front ++ (plan, book) :: back⟩ ⟨t.disk, front ++ back⟩
  | clear {isSure : Bool} {env : Env} {s t : State} {outcome : Except Failure Nat}
      {flights : List (Plan × Book)} : Sees place here p env →
      (runClear isSure place).run env s = (outcome, t) →
      Step place here p ⟨s.disk, flights⟩ ⟨t.disk, flights⟩

/-- What steps lead to from a race without requests. -/
inductive Reachable (place : Option Text) (here : Route) (p : Path) (start : Disk) : Race → Prop
  | start : Reachable place here p start ⟨start, []⟩
  | step {r r' : Race} :
      Reachable place here p start r → Step place here p r r' → Reachable place here p start r'

/-! ## The invariant -/

/-- Whether a file is missing or holds the wire forms of a book in which every name names one spell,
whatever room its reader has. -/
def HoldsUnique (d : Disk) (here : Route) (p : Path) : Prop :=
  ∀ bytes, d.fileAt here p = some bytes →
    ∃ book, IsUnique book ∧ ∀ room : Json.Room, found room (.ok bytes) = .ok (.items (wires book))

/-- Whether every name names one spell, in the file as well as in all that has been loaded. -/
structure IsSafe (here : Route) (p : Path) (r : Race) : Prop where
  ready : r.disk.IsReady here p
  file : HoldsUnique r.disk here p
  flights : ∀ flight ∈ r.flights, flight.1.IsSound ∧ IsUnique flight.2

/-- What is loaded from such a file is such a book. -/
theorem isUnique_of_loaded {room : Json.Room} {d : Disk} (file : HoldsUnique d here p) {reading : Reading}
    (loads : loaded room (d.contentAt here p) = .ok reading) :
    IsUnique reading.book ∧ reading.rejected = [] := by
  cases content : d.fileAt here p with
  | none =>
    obtain rfl := eq_of_loaded_absent content loads
    exact ⟨isUnique_nil, rfl⟩
  | some bytes =>
    obtain ⟨book, unique, holds⟩ := file bytes content
    rw [loaded_contentAt, content] at loads
    simp only [loaded, holds, ofItems_wires unique.lawful] at loads
    obtain rfl := Except.ok.inj loads
    exact ⟨unique.normal, rfl⟩

/-- Saving such a book keeps the file such a file, whether it succeeds or not. -/
theorem holdsUnique_save {env : Env} {s t : State} {book : Book} {outcome : Except Failure Path}
    (sees : Sees place here p env) (ready : s.disk.IsReady here p)
    (file : HoldsUnique s.disk here p)
    (unique : IsUnique book) (h : (save place book).run env s = (outcome, t)) :
    t.disk.IsReady here p ∧ HoldsUnique t.disk here p := by
  obtain ⟨rfl, rfl⟩ := sees
  cases outcome with
  | ok p =>
    obtain ⟨rfl, saved⟩ := run_save_eq_ok.mp h
    obtain ⟨ready', text', bytes, texted, encoded, content⟩ := isReady_saved ready saved
    refine ⟨ready', fun bytes' content' => ⟨book, unique, fun room => ?_⟩⟩
    obtain rfl := Option.some.inj (content.symm.trans content')
    exact found_text unique.lawful texted encoded room
  | error failure =>
    obtain ⟨ready', same⟩ := isReady_unsaved ready (run_save_eq_error.mp h)
    refine ⟨ready', fun bytes content => file bytes ?_⟩
    rwa [same] at content

/-- Clearing keeps the file such a file. -/
theorem holdsUnique_clear {env : Env} {s t : State} {isSure : Bool} {outcome : Except Failure Nat}
    (sees : Sees place here p env) (ready : s.disk.IsReady here p)
    (file : HoldsUnique s.disk here p)
    (h : (runClear isSure place).run env s = (outcome, t)) :
    t.disk.IsReady here p ∧ HoldsUnique t.disk here p := by
  obtain ⟨ready', cleared⟩ := isReady_runClear isSure sees ready
  rw [h] at ready' cleared
  refine ⟨ready', fun bytes content => ?_⟩
  rcases cleared with ⟨-, none, -⟩ | ⟨-, same⟩
  · exact absurd (none.symm.trans content) (by simp)
  · exact file bytes (same.symm.trans content)

/-- Every step is safe. -/
theorem IsSafe.step {r r' : Race} (safe : IsSafe here p r) (step : Step place here p r r') :
    IsSafe here p r' := by
  obtain ⟨ready, file, flights⟩ := safe
  cases step with
  | @begin request env s t flight flights' sees begun =>
    -- Loading leaves the disk alone, and what it gives is as unique as the file.
    have kept := request.disk_begin place env s
    obtain ⟨plans, reading, loads, same⟩ := Request.run_begin_eq_ok begun
    rw [begun] at kept
    rw [sees.1, sees.2] at loads
    refine ⟨kept.symm ▸ ready, kept.symm ▸ file,
      List.forall_mem_cons.mpr ⟨⟨plans.isSound, ?_⟩, flights⟩⟩
    rw [same]
    exact (isUnique_of_loaded file loads).1
  | @refuse request env s t failure flights' sees begun =>
    have kept := request.disk_begin place env s
    rw [begun] at kept
    exact ⟨kept.symm ▸ ready, kept.symm ▸ file, flights⟩
  | @finish plan book env s t outcome front back sees finished =>
    have others : ∀ flight ∈ front ++ back, flight.1.IsSound ∧ IsUnique flight.2 := by
      intro flight member
      refine flights flight ?_
      rcases List.mem_append.mp member with member | member
      · exact List.mem_append_left _ member
      · exact List.mem_append_right _ (List.mem_cons_of_mem _ member)
    -- The file may have changed since the book was loaded; only the book in flight counts.
    obtain ⟨sound, unique⟩ := flights (plan, book) (by simp)
    rcases plan.run_finish place book env s with
      ⟨revised, u, revises, kept, saves⟩ | ⟨failure, u, fails, kept, -⟩
    · obtain ⟨ready', file'⟩ := holdsUnique_save sees (kept.symm ▸ ready) (kept.symm ▸ file)
        (unique.revises sound revises) (saves.symm.trans finished)
      exact ⟨ready', file', others⟩
    · obtain ⟨-, rfl⟩ := Prod.mk.inj (finished.symm.trans fails)
      exact ⟨kept.symm ▸ ready, kept.symm ▸ file, others⟩
  | @clear isSure env s t outcome flights' sees cleared =>
    obtain ⟨ready', file'⟩ := holdsUnique_clear sees ready file cleared
    exact ⟨ready', file', flights⟩

/-- Every reachable race is safe. -/
theorem IsSafe.of_reachable {start : Disk} {r : Race} (tree : start.IsTree)
    (missing : ∀ content, start.find? (Disk.resolve here p) ≠ some (.file content))
    (reachable : Reachable place here p start r) : IsSafe here p r := by
  induction reachable with
  | start =>
    refine ⟨⟨tree, fun content found => absurd found (missing content)⟩, fun bytes content => ?_,
      by simp⟩
    exact absurd (Disk.find?_of_fileAt content) (missing bytes)
  | step _ step ih => exact ih.step step

/-- Whatever the order of the steps from a missing file on, the file is missing or an array whose
elements all pass the check, with pairwise different identifiers and names; loading it rejects
nothing, whatever room the reader has, and every name names one spell. -/
theorem file_of_reachable {start : Disk} {r : Race} (tree : start.IsTree)
    (missing : ∀ content, start.find? (Disk.resolve here p) ≠ some (.file content))
    (reachable : Reachable place here p start r) :
    r.disk.fileAt here p = none ∨
      ∃ bytes items spells, r.disk.fileAt here p = some bytes ∧
        (∀ room : Json.Room, found room (.ok bytes) = .ok (.items items)) ∧
        items.map Spell.check = spells.map Checked.valid ∧
        (spells.map Spell.id).Nodup ∧ (spells.map Spell.name).Nodup ∧
        ∃ book,
          (∀ room : Json.Room, loaded room (r.disk.contentAt here p) = .ok ⟨book, []⟩) ∧
          Entries.values book = spells ∧ ∀ s ∈ spells, book.named? s.name = some s := by
  have safe := IsSafe.of_reachable tree missing reachable
  cases content : r.disk.fileAt here p with
  | none => exact .inl rfl
  | some bytes =>
    obtain ⟨book, unique, holds⟩ := safe.file bytes content
    have checks : (wires book).map Spell.check
        = (Entries.values (Book.normal book)).map Checked.valid := by
      simp only [wires, Entries.values, Book.normal, List.map_map]
      refine List.map_congr_left fun e member => ?_
      exact Spell.check_wire (unique.lawful.checked e member).rules.1
    have ids : (Entries.values (Book.normal book)).map Spell.id
        = Entries.keys (Book.normal book) := by
      simp only [Entries.values, Entries.keys, List.map_map]
      exact List.map_congr_left fun e member => (unique.normal.lawful.own e member).symm
    refine .inr ⟨bytes, wires book, Entries.values (Book.normal book), rfl, holds, checks,
      ids ▸ unique.normal.lawful.distinct, unique.normal.names, Book.normal book, ?_, rfl, ?_⟩
    · intro room
      rw [loaded_contentAt, content]
      simp only [loaded, holds, ofItems_wires unique.lawful]
    · intro s member
      obtain ⟨e, inside, rfl⟩ := List.mem_map.mp member
      exact unique.normal.named inside

/-- Two requests to create the same spell, both of which load the book before one of them writes. -/
theorem file_of_reachable_twice : ∃ r,
    Reachable (some "spells.json") [] (Path.ofText "spells.json") State.empty.disk r ∧
    r.flights = [] ∧
    (r.disk.fileAt [] (Path.ofText "spells.json") = none ∨
      ∃ bytes items spells, r.disk.fileAt [] (Path.ofText "spells.json") = some bytes ∧
        (∀ room : Json.Room, found room (.ok bytes) = .ok (.items items)) ∧
        items.map Spell.check = spells.map Checked.valid ∧
        (spells.map Spell.id).Nodup ∧ (spells.map Spell.name).Nodup ∧
        ∃ book, (∀ room : Json.Room,
            loaded room (r.disk.contentAt [] (Path.ofText "spells.json")) = .ok ⟨book, []⟩) ∧
          Entries.values book = spells ∧ ∀ s ∈ spells, book.named? s.name = some s) := by
  have sees : Sees (some "spells.json") [] (Path.ofText "spells.json") Env.sample := ⟨rfl, rfl⟩
  have ends : ((Request.sample.begin (some "spells.json")).run Env.sample State.empty).1.isOk
      = true := by decide +kernel
  obtain ⟨flight, s, begun⟩ := run_eq_ok_of_isOk ends
  have kept : s.disk = State.empty.disk := by
    simpa [begun] using Request.sample.disk_begin (some "spells.json") Env.sample State.empty
  have begins : ∀ flights, Step (some "spells.json") [] (Path.ofText "spells.json")
      ⟨State.empty.disk, flights⟩ ⟨State.empty.disk, flight :: flights⟩ := by
    intro flights
    have step : Step (some "spells.json") [] (Path.ofText "spells.json")
      ⟨State.empty.disk, flights⟩ ⟨s.disk, flight :: flights⟩ := .begin sees begun
    rwa [kept] at step
  have finishes : ∀ (t : State) flights, ∃ u : State,
      Step (some "spells.json") [] (Path.ofText "spells.json")
        ⟨t.disk, flight :: flights⟩ ⟨u.disk, flights⟩ := fun t flights =>
    ⟨_, @Step.finish _ _ _ flight.1 flight.2 Env.sample t _ _ [] flights sees rfl⟩
  obtain ⟨t, third⟩ := finishes State.empty [flight]
  obtain ⟨u, fourth⟩ := finishes t []
  -- Both have loaded the missing file before the first of them writes.
  have loaded := (Reachable.start.step (begins [])).step (begins [flight])
  have reachable := (loaded.step third).step fourth
  refine ⟨⟨u.disk, []⟩, reachable, rfl, ?_⟩
  exact file_of_reachable State.isTree_empty (fun content found => by cases found) reachable

end Race

end Grimoire.Book
