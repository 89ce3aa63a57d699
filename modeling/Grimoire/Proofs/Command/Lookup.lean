import Grimoire.Proofs.Book.Kept

/-!
# Looking spells up by name

A key means the spell with that identifier, and the spell with that name only if no spell has the
identifier. In a book that calls have made from a missing file on, every spell is found, shown and
removed by its name, unless the name is the identifier of another spell
(`Book.reaches_named_runAll`); in that case the other one is shown and removed
(`Book.reaches_other`).
-/

namespace Grimoire

namespace Book

open Act Command

variable {place : Option Text} {here : Route} {p : Path} {env : Env} {s t : State} {book : Book}
  {spell : Spell}

/-- A spell whose name is the identifier of no other spell is what its name means. -/
theorem IsUnique.lookUp?_name (unique : IsUnique book) (member : spell ∈ Entries.values book)
    (own : ∀ other ∈ Entries.values book, other.id = spell.name → other = spell) :
    book.lookUp? spell.name = some spell := by
  obtain ⟨e, inside, rfl⟩ := List.mem_map.mp member
  rw [lookUp?]
  cases found : Entries.find? e.2.name book with
  | none => exact unique.named inside
  | some other =>
    rw [← unique.lawful.keyed_values, find?_keyed] at found
    have same : other.id = e.2.name := by simpa using List.find?_some found
    exact congrArg some (own other (List.mem_of_find?_eq_some found) same)

/-- Looking up loads the book. -/
theorem run_lookUp {key : Text} {rejected : List (Nat × Nat)} (sees : Sees place here p env)
    (loads : loaded env.rooms.book (s.disk.contentAt here p) = .ok ⟨book, rejected⟩)
    (found : book.lookUp? key = some spell) :
    ∃ t, (lookUp key place).run env s = (.ok (book, spell), t) ∧ s.Logs t := by
  obtain ⟨t, loading, logs⟩ := run_load place env s
  rw [sees.1, sees.2, loads] at loading
  refine ⟨t, run_bind_eq_ok.mpr ⟨book, t, loading, ?_⟩, logs⟩
  rw [found]
  rfl

/-- A spell that is looked up is printed in its written form. -/
theorem run_runDisplay {key : Text} {rejected : List (Nat × Nat)} (sees : Sees place here p env)
    (loads : loaded env.rooms.book (s.disk.contentAt here p) = .ok ⟨book, rejected⟩)
    (found : book.lookUp? key = some spell) (wirable : spell.isWirable = true)
    (encodable : (Json.pretty spell.wire).isEncodable = true) :
    ∃ t, (runDisplay key place).run env s = (.ok 0, t) ∧ t.disk = s.disk ∧
      t.output = s.output ++ Json.pretty spell.wire ++ "\n" := by
  obtain ⟨t, looksUp, log, rfl⟩ := run_lookUp sees loads found
  have wire : spell.wire? = .ok spell.wire := Spell.wire?_eq_ok_iff.mpr ⟨wirable, rfl⟩
  rw [runDisplay, orReport_of_ok looksUp]
  dsimp only
  rw [wire]
  exact ⟨_, run_bind_eq_ok.mpr ⟨spell.wire, _, rfl, run_bind_eq_ok.mpr ⟨(), _, run_bind_eq_ok.mpr
    ⟨(), _, run_print encodable env _, run_print (by decide) env _⟩, rfl⟩⟩, rfl, rfl⟩

/-- A spell that is looked up is taken out of the book. -/
theorem disk_runRemove {key : Text} {rejected : List (Nat × Nat)} (sees : Sees place here p env)
    (loads : loaded env.rooms.book (s.disk.contentAt here p) = .ok ⟨book, rejected⟩)
    (found : book.lookUp? key = some spell) :
    ∃ t, t.disk = s.disk ∧ ((runRemove key place).run env s).2.disk
      = ((Book.save place (Entries.erase spell.id book)).run env t).2.disk := by
  obtain ⟨t, looksUp, logs⟩ := run_lookUp sees loads found
  refine ⟨t, logs.disk, ?_⟩
  rw [runRemove, orReport_of_ok looksUp]
  exact SameDisk.followed (fun _ => (isPassive_say _).bind fun _ => .pure 0) env t

theorem normal_normal (book : Book) : normal (normal book) = normal book := by
  simp [normal, Spell.normal_normal]

theorem normal_erase (key : Text) (book : Book) :
    normal (Entries.erase key book) = Entries.erase key (normal book) := by
  rw [normal, normal, Entries.erase, Entries.erase, List.filter_map]
  rfl

/-- Erasing takes out one spell. -/
theorem IsLawful.values_erase (lawful : IsLawful book) (member : spell ∈ Entries.values book) :
    Entries.values (Entries.erase spell.id book)
      = (Entries.values book).filter fun other => other ≠ spell := by
  obtain ⟨e, inside, rfl⟩ := List.mem_map.mp member
  rw [Entries.erase, Entries.values, Entries.values, List.filter_map]
  refine congrArg (List.map Prod.snd) (List.filter_congr fun f inside' => ?_)
  rw [Function.comp_apply, decide_eq_decide, ← lawful.own e inside]
  refine not_congr ⟨fun same => ?_, fun same => ?_⟩
  · rw [List.inj_on_of_nodup_map lawful.distinct inside' inside same]
  · rw [lawful.own f inside', lawful.own e inside, same]

theorem IsLawful.mem_of_lookUp? {key : Text} (lawful : IsLawful book)
    (found : book.lookUp? key = some spell) : spell ∈ Entries.values book := by
  have distinct : ((Entries.values book).map Spell.id).Nodup := by
    rw [← keys_keyed, lawful.keyed_values]
    exact lawful.distinct
  rw [← lawful.keyed_values] at found
  obtain ⟨front, back, split, -⟩ := (lookUp?_keyed distinct).mp found
  rw [split]
  simp

/-- What a key means in a file that is kept is shown, and it is removed and nothing else with it. -/
theorem IsKept.reaches {key : Text} {reading : Reading} (kept : IsKept s.disk here p)
    (sees : Sees place here p env)
    (loads : loaded env.rooms.book (s.disk.contentAt here p) = .ok reading)
    (found : reading.book.lookUp? key = some spell) :
    (∃ t, (runDisplay key place).run env s = (.ok 0, t) ∧ t.disk = s.disk ∧
      t.output = s.output ++ Json.pretty spell.wire ++ "\n") ∧
    ∃ rest, loaded env.rooms.book (((runRemove key place).run env s).2.disk.contentAt here p)
        = .ok ⟨rest, []⟩ ∧
      Entries.values rest = (Entries.values reading.book).filter fun other => other ≠ spell := by
  have unique := kept.isUnique loads
  have member := unique.lawful.mem_of_lookUp? found
  rcases kept.loads loads with rfl | ⟨stored, keeps, rfl⟩
  · exact absurd member (by simp [Entries.values])
  have encodable := keeps.isEncodable.normal
  constructor
  · obtain ⟨e, inside, rfl⟩ := List.mem_map.mp member
    obtain ⟨wirable, -, pretty⟩ := isEncodable_iff.mp encodable e inside
    exact run_runDisplay sees loads found wirable pretty
  · -- The rest of the book is saved, because its text is a part of one that was saved before.
    obtain ⟨t, same, removes⟩ := disk_runRemove sees loads found
    rw [← same] at kept keeps
    obtain ⟨u, saves, keeps'⟩ := Keeps.save (s := t) keeps kept.ready sees
      (unique.erase spell.id) (encodable.erase spell.id)
    refine ⟨_, ?_, unique.lawful.values_erase member⟩
    rw [removes, saves, keeps'.loads, normal_erase, normal_normal]

/-- In a book that any calls have made from a missing file on, every spell is shown and removed by
its name, and nothing else is removed with it, unless the name is the identifier of another spell.
-/
theorem reaches_named_runAll {calls : List Call} {reading : Reading} (tree : s.disk.IsTree)
    (missing : ∀ content, s.disk.find? (Disk.resolve here p) ≠ some (.file content))
    (sees : ∀ c ∈ calls, Sees place here p c.env) (last : t.disk = (runAll place calls s).disk)
    (sees' : Sees place here p env)
    (loads : loaded env.rooms.book (t.disk.contentAt here p) = .ok reading)
    (member : spell ∈ Entries.values reading.book)
    (own : ∀ other ∈ Entries.values reading.book, other.id = spell.name → other = spell) :
    (∃ u, (runDisplay spell.name place).run env t = (.ok 0, u) ∧ u.disk = t.disk ∧
      u.output = t.output ++ Json.pretty spell.wire ++ "\n") ∧
    ∃ rest, loaded env.rooms.book (((runRemove spell.name place).run env t).2.disk.contentAt here p)
        = .ok ⟨rest, []⟩ ∧
      Entries.values rest = (Entries.values reading.book).filter fun other => other ≠ spell := by
  have kept : IsKept t.disk here p := last ▸ isKept_runAll tree missing sees
  exact kept.reaches sees' loads ((kept.isUnique loads).lookUp?_name member own)

/-! ## A name that is an identifier -/

/-- A spell under the name that is the identifier of the sample spell. -/
def namesake : Spell :=
  { Spell.sample with id := "7d444840-9dc0-11d1-b245-5ffdce74fad3", name := Spell.sample.id }

/-- A request to create the namesake. -/
def Request.namesake : Request :=
  .create ⟨[("name", .str Book.namesake.name), ("description", .str Book.namesake.description),
    ("inputSchema", .obj Book.namesake.inputSchema), ("outputSchema", .obj []),
    ("action", Spell.wireAction Book.namesake.action)], by decide +kernel⟩

/-- The sample spell and then its namesake are created. -/
def namesakeCalls : List Call :=
  [⟨Env.sample, [], .revise .sample⟩,
    ⟨{ Env.sample with freshId := fun _ => namesake.id }, [], .revise .namesake⟩]

/-- The state in which the sample spell and its namesake are in the book. -/
def namesakes : State := runAll (some "spells.json") namesakeCalls State.empty

/-- The book with the sample spell and its namesake. -/
def namesakeBook : Book :=
  [(Spell.sample.id, Spell.sample.normal), (namesake.id, namesake.normal)]

theorem missing_empty : ∀ content,
    State.empty.disk.find? (Disk.resolve [] (Path.ofText "spells.json"))
      ≠ some (.file content) := by
  intro content found
  cases found

theorem disk_namesakes :
    namesakes.disk = (runAll (some "spells.json") namesakeCalls State.empty).disk := by
  rw [namesakes]

theorem sees_namesakeCalls :
    ∀ c ∈ namesakeCalls, Sees (some "spells.json") [] (Path.ofText "spells.json") c.env := by
  intro c member
  simp only [namesakeCalls, List.mem_cons, List.not_mem_nil, or_false] at member
  rcases member with rfl | rfl <;> exact ⟨rfl, rfl⟩

deriving instance DecidableEq for Reading

theorem loaded_namesakes :
    loaded Env.sample.rooms.book (namesakes.disk.contentAt [] (Path.ofText "spells.json"))
      = .ok ⟨namesakeBook, []⟩ := by decide +kernel

theorem reaches_named_sample :
    (∃ u, (runDisplay Spell.sample.normal.name (some "spells.json")).run Env.sample namesakes
        = (.ok 0, u) ∧ u.disk = namesakes.disk ∧
      u.output = namesakes.output ++ Json.pretty Spell.sample.normal.wire ++ "\n") ∧
    ∃ rest, loaded Env.sample.rooms.book (((runRemove Spell.sample.normal.name
        (some "spells.json")).run Env.sample namesakes).2.disk.contentAt []
        (Path.ofText "spells.json")) = .ok ⟨rest, []⟩ ∧
      Entries.values rest = (Entries.values namesakeBook).filter fun other =>
        other ≠ Spell.sample.normal := by
  have member : Spell.sample.normal ∈ Entries.values namesakeBook := List.mem_cons_self
  have own : ∀ other ∈ Entries.values namesakeBook,
      other.id = Spell.sample.normal.name → other = Spell.sample.normal := by
    intro other inside same
    rcases List.mem_cons.mp inside with rfl | inside
    · rfl
    · obtain rfl := List.mem_singleton.mp inside
      exact absurd same (by decide)
  exact reaches_named_runAll State.isTree_empty missing_empty sees_namesakeCalls disk_namesakes
    ⟨rfl, rfl⟩ loaded_namesakes member own

/-- By its name the namesake is not reached: the sample spell is shown, and it is removed. -/
theorem reaches_other :
    loaded Env.sample.rooms.book (namesakes.disk.contentAt [] (Path.ofText "spells.json"))
      = .ok ⟨namesakeBook, []⟩ ∧
    namesake.normal ∈ Entries.values namesakeBook ∧
    Json.pretty Spell.sample.normal.wire ≠ Json.pretty namesake.normal.wire ∧
    (∃ u, (runDisplay namesake.name (some "spells.json")).run Env.sample namesakes = (.ok 0, u) ∧
      u.disk = namesakes.disk ∧
      u.output = namesakes.output ++ Json.pretty Spell.sample.normal.wire ++ "\n") ∧
    ∃ rest, loaded Env.sample.rooms.book (((runRemove namesake.name
        (some "spells.json")).run Env.sample namesakes).2.disk.contentAt []
        (Path.ofText "spells.json")) = .ok ⟨rest, []⟩ ∧
      Entries.values rest = (Entries.values namesakeBook).filter fun other =>
        other ≠ Spell.sample.normal := by
  refine ⟨loaded_namesakes, List.mem_cons_of_mem _ List.mem_cons_self, by decide +kernel, ?_⟩
  have kept : IsKept namesakes.disk [] (Path.ofText "spells.json") :=
    disk_namesakes ▸ isKept_runAll State.isTree_empty missing_empty sees_namesakeCalls
  have found : namesakeBook.lookUp? namesake.name = some Spell.sample.normal := by decide +kernel
  exact kept.reaches ⟨rfl, rfl⟩ loaded_namesakes found

end Book

end Grimoire
