import Grimoire.Proofs.Command.Independence
import Grimoire.Proofs.Tool.Agreement

/-!
# The order of two runs

Two runs of the command that generates, for spells with different names, are made one after the other with
one folder. They come to the same and leave the same in either order, and each changes only what it owns
(`Command.Generation.generate_commutes`). The way of the folder has to be free of what the runs use if one
of them writes an archive, because folders are made on it then
(`Command.Generation.generate_interferes`).
-/

namespace Grimoire.Command

open Act Disk Grimoire.Bundle

/-- Loading a spell comes to the same if the same text is read. -/
theorem loadSpell_congr {source : Text} {env : Env} {s t : State}
    (same : ((Source.readText source).run env s).1 = ((Source.readText source).run env t).1) :
    ((loadSpell source).run env s).1 = ((loadSpell source).run env t).1 := by
  rw [loadSpell, Source.read, run_bind, run_bind, run_bind, run_bind]
  rcases first : (Source.readText source).run env s with ⟨failure | text, u⟩ <;>
    rcases second : (Source.readText source).run env t with ⟨failure' | text', u'⟩ <;>
    rw [first, second] at same <;> cases same
  · rfl
  · dsimp only
    rw [run_bind, run_bind, run_env, run_env]
    dsimp only
    rw [run_ofExcept, run_ofExcept]
    cases Source.parse env.rooms.source source text with
    | error failure => rfl
    | ok candidate =>
      obtain ⟨v, checks, -⟩ := Tool.run_check candidate env u
      obtain ⟨v', checks', -⟩ := Tool.run_check candidate env u'
      exact (congrArg Prod.fst checks).trans (congrArg Prod.fst checks').symm

/-- A run of the command that generates, but for the disk and the folder. -/
structure Generation (here : Route) where
  env : Env
  start : State
  source : Text
  alsoArchive : Bool
  force : Bool
  stands : env.here = here := by rfl

namespace Generation

variable {here : Route} {f g : Generation here} {out : Text} {d e : Disk} {q : Route}
  {new new' : Spell}

/-- The run on a disk. -/
def run (f : Generation here) (out : Text) (d : Disk) : Except Failure Nat × State :=
  (runGenerate f.source out f.alsoArchive f.force).run f.env { f.start with disk := d }

/-- The disk after the run. -/
def after (f : Generation here) (out : Text) (d : Disk) : Disk := (f.run out d).2.disk

/-- Whether the run ends with code 0. -/
def Succeeds (f : Generation here) (out : Text) (d : Disk) : Prop := (f.run out d).1 = .ok 0

/-- Whether a spell is loaded. -/
def Loads (f : Generation here) (d : Disk) (new : Spell) : Prop :=
  ((loadSpell f.source).run f.env { f.start with disk := d }).1 = .ok new

/-- Whether the source is a file and its path passes a route. -/
def Reads (f : Generation here) (q : Route) : Prop :=
  f.source ≠ "-" ∧ Locator.isWeb f.source = .ok false ∧ Passes here (Path.ofText f.source) q

/-- The job of a run that has loaded a spell. -/
def job (f : Generation here) (out : Text) (new : Spell) : Job here (Path.ofText out) :=
  ⟨new, f.alsoArchive, f.force, f.env.marks⟩

/-- The content of the file, if the source is one, decides what is loaded. -/
theorem Loads.congr (loads : f.Loads d new) (same : ∀ q, f.Reads q → e.find? q = d.find? q) :
    f.Loads e new := by
  refine (loadSpell_congr ?_).trans loads
  rw [Source.fst_readText, Source.fst_readText]
  split
  · rfl
  · next other =>
    split
    · rfl
    · rfl
    · next locates =>
      refine congrArg (Source.fileText f.source) (contentAt_congr fun q passes => ?_)
      rw [f.stands] at passes
      exact same q ⟨other, locates, passes⟩

/-- What the path of a source passes is there. -/
theorem Loads.there (loads : f.Loads d new) (reads : f.Reads q) : d.find? q ≠ none := by
  obtain ⟨other, locates, passes⟩ := reads
  rcases outcome : (loadSpell f.source).run f.env { f.start with disk := d } with ⟨failure | loaded, t⟩
  · exact absurd loads (by rw [Loads, outcome]; simp)
  obtain ⟨candidate, u, read, -⟩ := run_bind_eq_ok.mp outcome
  obtain ⟨text, v, texts, -⟩ := run_bind_eq_ok.mp read
  have texts' := congrArg Prod.fst texts
  rw [Source.fst_readText, if_neg other, locates, f.stands] at texts'
  cases content : d.contentAt here (Path.ofText f.source) with
  | ok bytes => exact find?_of_contentAt content passes
  | error error =>
    dsimp only at texts'
    rw [content, Source.fileText] at texts'
    split at texts' <;> cases texts'

theorem Loads.isValid (loads : f.Loads d new) : new.IsValid :=
  isValid_of_loadSpell (Prod.ext loads rfl)

/-- What a run leaves, and when it ends with code 0. -/
theorem leaves_of_loads (tree : d.IsTree) (plain : IsPlain here) (loads : f.Loads d new)
    (out : Text) : ∃ done, (f.job out new).Leaves d done (f.after out d) ∧
      (f.Succeeds out d ↔
        done = true ∧
          IsPrintable f.env.marks (generatedTable new here (Path.ofText out) f.alsoArchive)) := by
  rcases outcome : (loadSpell f.source).run f.env { f.start with disk := d } with ⟨failure | loaded, t⟩
  · exact absurd loads (by rw [Loads, outcome]; simp)
  obtain rfl : loaded = new := by
    rw [Loads, outcome] at loads
    exact Except.ok.inj loads
  have same : t.disk = d := by
    have passive := (isPassive_loadSpell f.source f.env { f.start with disk := d }).1
    rwa [outcome] at passive
  have plain' : IsPlain f.env.here := f.stands.symm ▸ plain
  obtain ⟨done, leaves, code⟩ := run_generateSpell (isValid_of_loadSpell outcome)
    (same.symm ▸ tree : t.disk.IsTree) plain' out f.alsoArchive f.force
  rw [same, f.stands] at leaves
  rw [f.stands] at code
  refine ⟨done, ?_, ?_⟩
  · rw [after, run, runGenerate_eq, orReport_of_ok outcome]
    exact leaves
  · rw [Succeeds, run, runGenerate_eq, orReport_of_ok outcome]
    exact code

/-- A run changes only what it owns. -/
theorem keeps_of_loads (tree : d.IsTree) (plain : IsPlain here) (loads : f.Loads d new) (out : Text) :
    (f.job out new).Keeps d (f.after out d) :=
  have ⟨_, leaves, _⟩ := leaves_of_loads tree plain loads out
  Job.keeps_of_leaves plain (Path.names_ofText out) leaves

theorem isTree_after (tree : d.IsTree) (plain : IsPlain here) (loads : f.Loads d new) (out : Text) :
    (f.after out d).IsTree :=
  have ⟨_, leaves, _⟩ := leaves_of_loads tree plain loads out
  Leaves.tree leaves tree plain (Path.names_ofText out)

/-- A run takes no source away from another one. -/
theorem Loads.after (tree : d.IsTree) (plain : IsPlain here) (loads : f.Loads d new)
    (loads' : g.Loads d new') (outside : ∀ q, f.Reads q → ¬(g.job out new').Owns q) :
    f.Loads (g.after out d) new := by
  refine loads.congr fun q reads => ?_
  rcases keeps_of_loads tree plain loads' out q (outside q reads) with same | ⟨free, -, -⟩
  · exact same
  · exact absurd free (loads.there reads)

/-- A run that cannot begin does nothing. -/
theorem after_of_not_canBegin (tree : d.IsTree) (plain : IsPlain here) (loads : f.Loads d new)
    (cannot : ¬CanBegin f.env.marks new here (Path.ofText out)) :
    f.after out d = d ∧ ¬f.Succeeds out d := by
  obtain ⟨done, leaves, code⟩ := leaves_of_loads tree plain loads out
  obtain ⟨rfl, same⟩ := Job.eq_of_leaves cannot leaves
  exact ⟨same, by simp [code]⟩

/-- Whether two runs come to the same and leave the same in either order, and each of them changes only
what it owns. -/
structure Commutes (f g : Generation here) (out : Text) (new new' : Spell) (d : Disk) : Prop where
  succeeds : f.Succeeds out (g.after out d) ↔ f.Succeeds out d
  succeeds' : g.Succeeds out (f.after out d) ↔ g.Succeeds out d
  same : Same (g.after out (f.after out d)) (f.after out (g.after out d))
  keeps : (f.job out new).Keeps d (f.after out d)
  keeps' : (g.job out new').Keeps d (g.after out d)
  keepsThen : (f.job out new).Keeps (g.after out d) (f.after out (g.after out d))
  keepsThen' : (g.job out new').Keeps (f.after out d) (g.after out (f.after out d))

/-- Two spells with different names are generated into one folder in either order with the same outcome,
and each run changes only what it owns, on each disk and with all flags. No source may lie where the other
run writes, and if an archive is written, the way of the folder may not lead through what the runs use. -/
theorem generate_commutes (tree : d.IsTree) (plain : IsPlain here) (loads : f.Loads d new)
    (loads' : g.Loads d new') (differ : new.name ≠ new'.name)
    (outside : ∀ q, f.Reads q → ¬(g.job out new').Owns q)
    (outside' : ∀ q, g.Reads q → ¬(f.job out new).Owns q)
    (clear : f.alsoArchive = true ∨ g.alsoArchive = true → ∀ q, Passes here (Path.ofText out) q →
      ¬(f.job out new).Uses q ∧ ¬(g.job out new').Uses q) : Commutes f g out new new' d := by
  have tree₁ := isTree_after tree plain loads out
  have tree₁' := isTree_after tree plain loads' out
  have loads₂ : f.Loads (g.after out d) new := loads.after tree plain loads' outside
  have loads₂' : g.Loads (f.after out d) new' := loads'.after tree plain loads outside'
  suffices (f.Succeeds out (g.after out d) ↔ f.Succeeds out d) ∧
      (g.Succeeds out (f.after out d) ↔ g.Succeeds out d) ∧
      Same (g.after out (f.after out d)) (f.after out (g.after out d)) from
    ⟨this.1, this.2.1, this.2.2, keeps_of_loads tree plain loads out,
      keeps_of_loads tree plain loads' out, keeps_of_loads tree₁' plain loads₂ out,
      keeps_of_loads tree₁ plain loads₂' out⟩
  by_cases begins : CanBegin f.env.marks new here (Path.ofText out)
  · by_cases begins' : CanBegin g.env.marks new' here (Path.ofText out)
    · obtain ⟨done₁, first, code⟩ := leaves_of_loads tree plain loads out
      obtain ⟨done₂, second, code₂⟩ := leaves_of_loads tree₁ plain loads₂' out
      obtain ⟨done₂', first', code'⟩ := leaves_of_loads tree plain loads' out
      obtain ⟨done₁', second', code₂'⟩ := leaves_of_loads tree₁' plain loads₂ out
      have apart : (f.job out new).AreApart (g.job out new') :=
        ⟨loads.isValid.isStem, loads'.isValid.isStem,
          loads.isValid.ofText_name_ne loads'.isValid differ, clear⟩
      obtain ⟨rfl, rfl, same⟩ := Job.commute apart plain (Path.names_ofText out) begins begins' first
        second first' second'
      exact ⟨code₂'.trans code.symm, code₂.trans code'.symm, same⟩
    · obtain ⟨stays, fails⟩ := after_of_not_canBegin tree plain loads' begins'
      obtain ⟨stays₂, fails₂⟩ := after_of_not_canBegin tree₁ plain loads₂' begins'
      rw [stays, stays₂]
      exact ⟨Iff.rfl, iff_of_false fails₂ fails, fun q => rfl⟩
  · obtain ⟨stays, fails⟩ := after_of_not_canBegin tree plain loads begins
    obtain ⟨stays₂, fails₂⟩ := after_of_not_canBegin tree₁' plain loads₂ begins
    rw [stays, stays₂]
    exact ⟨iff_of_false fails₂ fails, Iff.rfl, fun q => rfl⟩

/-! ## Two documents -/

/-- A spell that differs from the sample one in its name. -/
def otherSpell : Spell := { Spell.sample with name := "say-bye" }

/-- A disk with the documents of two spells. -/
def documents : Disk :=
  ⟨[([Name.ofText "a.json"], .file ((Utf8.encode (Json.pretty Spell.sample.wire)).getD [])),
    ([Name.ofText "b.json"], .file ((Utf8.encode (Json.pretty otherSpell.wire)).getD []))]⟩

theorem isTree_documents : documents.IsTree := isTree_of_entries (by decide)

/-- The run for the sample spell, which writes an archive. -/
def archiving : Generation [] := ⟨Env.sample, State.empty, "a.json", true, false, rfl⟩

/-- The run for the other spell. -/
def plainly : Generation [] := ⟨Env.sample, State.empty, "b.json", false, false, rfl⟩

theorem loads_archiving : archiving.Loads documents Spell.sample.normal := by
  rw [Loads]
  decide +kernel

theorem loads_plainly : plainly.Loads documents otherSpell.normal := by
  rw [Loads]
  decide +kernel

/-- The documents lie in the root, so outside of each other folder. -/
theorem outside_of_reads {folder : Path} (deep : resolve [] folder ≠ []) {name : Name}
    (reads : archiving.Reads q ∨ plainly.Reads q) : ¬resolve [] folder ++ [name] <+: q := by
  intro below
  have short : q.length ≤ 1 := by
    rcases reads with ⟨-, -, passes⟩ | ⟨-, -, passes⟩ <;>
      exact (passes.above (by decide)).length_le
  have long := below.length_le
  have positive := List.length_pos_iff.mpr deep
  rw [List.length_append, List.length_singleton] at long
  omega

/-- The spells are generated into a folder that is missing. -/
theorem generate_commutes_missing :
    documents.IsTree ∧ IsPlain [] ∧ archiving.Loads documents Spell.sample.normal ∧
    plainly.Loads documents otherSpell.normal ∧ Spell.sample.normal.name ≠ otherSpell.normal.name ∧
    Commutes archiving plainly "x/y" Spell.sample.normal otherSpell.normal documents := by
  have plain : IsPlain [] := fun name member => absurd member (by simp)
  have outside (j : Job [] (Path.ofText "x/y")) (q : Route)
      (reads : archiving.Reads q ∨ plainly.Reads q) : ¬j.Owns q := fun own =>
    have ⟨_, below⟩ := own.inside
    outside_of_reads (by decide) reads below
  exact ⟨isTree_documents, plain, loads_archiving, loads_plainly, by decide,
    generate_commutes isTree_documents plain loads_archiving loads_plainly (by decide)
      (fun q reads => outside _ q (.inl reads)) (fun q reads => outside _ q (.inr reads))
      fun _ q passes => ⟨fun uses => uses.not_above (passes.above (by decide)),
        fun uses => uses.not_above (passes.above (by decide))⟩⟩

/-! ## A way that leads through a place -/

/-- The text of a path whose way leads through the place of the other spell. -/
def winding : Text := "x/say-bye/.."

theorem places_winding (j : Job [] (Path.ofText winding)) (valid : j.new.IsValid)
    (loose : ∀ t ∈ j.new.looseTexts, t.isEncodable = true)
    (name : j.new.name = "say-hello" ∨ j.new.name = "say-bye") :
    j.Places (documents.grounded [] (resolve [] (Path.ofText winding))) := by
  have isOpen : (documents.grounded [] (resolve [] (Path.ofText winding))).IsOpen
      (resolve [] (Path.ofText winding)) := isOpen_grounded (by decide) (by decide)
  have reaches (last : Name) := @reaches_concat _ _ last isOpen.way isOpen.folder
  rcases name with name | name
  · have place : j.place = fileOf (resolve [] (Path.ofText winding)) "say-hello" := by
      rw [Job.place, name]
    exact Job.places_of_free (Name.ofText ".say-hello-00000000") valid loose
      (by rw [place]; decide +kernel) (by rw [place]; decide +kernel)
      (place ▸ (reaches _).mpr (by decide)) ((reaches _).mpr (by decide))
      (by rw [names_ofSpell]; decide)
  · have place : j.place = fileOf (resolve [] (Path.ofText winding)) "say-bye" := by
      rw [Job.place, name]
    exact Job.places_of_free (Name.ofText ".say-bye-00000000") valid loose
      (by rw [place]; decide +kernel) (by rw [place]; decide +kernel)
      (place ▸ (reaches _).mpr (by decide)) ((reaches _).mpr (by decide))
      (by rw [names_ofSpell]; decide)

/-- The archive of the sample spell makes a folder in the place of the other spell. -/
theorem find?_after_archiving :
    (archiving.after winding documents).find? [Name.ofText "x", Name.ofText "say-bye"]
      = some .folder := by
  classical
  obtain ⟨done, leaves, -⟩ := leaves_of_loads isTree_documents
    (fun name member => absurd member (by simp)) loads_archiving winding
  have places := places_winding (archiving.job winding Spell.sample.normal)
    loads_archiving.isValid (by decide) (.inl rfl)
  have clear : (archiving.job winding Spell.sample.normal).IsClear := by
    rintro q ⟨first, before, rfl⟩
    have each : ∀ first ∈ (names (Path.ofText winding)).inits,
        ¬(archiving.job winding Spell.sample.normal).Owns
          (first.foldl follow (origin [] (Path.ofText winding))) := by decide
    exact each first ((List.mem_inits _ _).mpr before)
  have begins : CanBegin Env.sample.marks Spell.sample.normal [] (Path.ofText winding) :=
    ⟨(run_sayWarnings_eq_ok _ Env.sample State.empty).mp (by decide +kernel), by decide,
      by decide, by decide⟩
  have does := Job.does_of_leaves (fun _ => clear) begins (by decide) leaves
  rw [does.others _ (by decide), if_pos ⟨places, rfl⟩]
  decide

/-- The other spell is generated if that is done first, but not once the sample spell has been generated.
-/
theorem generate_interferes :
    documents.IsTree ∧ IsPlain [] ∧ archiving.Loads documents Spell.sample.normal ∧
    plainly.Loads documents otherSpell.normal ∧ Spell.sample.normal.name ≠ otherSpell.normal.name ∧
    (∀ q, archiving.Reads q ∨ plainly.Reads q →
      ∀ name, ¬resolve [] (Path.ofText winding) ++ [name] <+: q) ∧
    plainly.Succeeds winding documents ∧
    ¬plainly.Succeeds winding (archiving.after winding documents) := by
  have plain : IsPlain [] := fun name member => absurd member (by simp)
  refine ⟨isTree_documents, plain, loads_archiving, loads_plainly, by decide,
    fun q reads name => outside_of_reads (by decide) reads, ?_, ?_⟩
  · obtain ⟨done, leaves, code⟩ := leaves_of_loads isTree_documents plain loads_plainly winding
    have places := places_winding (plainly.job winding otherSpell.normal) loads_plainly.isValid
      (by decide) (.inr rfl)
    have begins : CanBegin Env.sample.marks otherSpell.normal [] (Path.ofText winding) :=
      ⟨(run_sayWarnings_eq_ok _ Env.sample State.empty).mp (by decide +kernel), by decide,
        by decide, by decide⟩
    have does := Job.does_of_leaves (fun asked => absurd asked (by decide)) begins (by decide) leaves
    exact code.mpr ⟨does.done.mpr ⟨places, fun asked => absurd asked (by decide)⟩,
      isPrintable_generatedTable _ loads_plainly.isValid (by decide) (by decide) false⟩
  · have outside (q : Route) (reads : plainly.Reads q) :
        ¬(archiving.job winding Spell.sample.normal).Owns q := fun own =>
      have ⟨_, below⟩ := own.inside
      outside_of_reads (by decide) (.inr reads) below
    have loads := loads_plainly.after isTree_documents plain loads_archiving outside
    obtain ⟨done, leaves, code⟩ := leaves_of_loads
      (isTree_after isTree_documents plain loads_archiving winding) plain loads winding
    have taken :
        (archiving.after winding documents).find? [Name.ofText "x", Name.ofText "say-bye"] ≠ none := by
      rw [find?_after_archiving]
      simp
    have stays := Job.not_done_of_taken plain (Path.names_ofText winding) rfl taken leaves
    exact fun succeeds => absurd (stays.symm.trans (code.mp succeeds).1) (by decide)

end Generation

end Grimoire.Command
