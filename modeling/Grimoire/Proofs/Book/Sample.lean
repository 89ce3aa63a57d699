import Grimoire.Console.Styles
import Grimoire.Proofs.Book.Requests

/-!
# A sample spell

The spell, the process and the request with which general statements are tried out.
-/

namespace Grimoire

/-- A spell whose input schema holds a number that is not finite. -/
def Spell.sample : Spell where
  id := "7d444840-9dc0-11d1-b245-5ffdce74fad2"
  name := "say-hello"
  description := List.replicate 100 (.scalar 'a')
  inputSchema := [("type", .str "object"), ("limit", .float .nan)]
  outputSchema := []
  action := .script "return 1"

theorem Spell.isChecked_sample : Spell.sample.IsChecked :=
  ⟨.obj [("id", .str sample.id), ("name", .str sample.name),
      ("description", .str sample.description), ("inputSchema", .obj sample.inputSchema),
      ("outputSchema", .obj sample.outputSchema), ("action", wireAction sample.action)],
    by decide +kernel, rfl⟩

/-- Room for nine hundred containers. -/
def Rooms.sample : Rooms := ⟨⟨900, by decide⟩, ⟨900, by decide⟩, ⟨900, by decide⟩⟩

/-- The environment of a process in the root, without settings, which always draws the same
identifier. -/
def Env.sample : Env :=
  ⟨[], "/", none, "", fun _ => Spell.sample.id, fun _ => .broken "", fun _ => none, false, .sample,
    .simple⟩

/-- The state of a process that has just started, on a disk with nothing on it. -/
def State.empty : State := ⟨⟨[]⟩, [], 0, [], []⟩

theorem State.isTree_empty : State.empty.disk.IsTree :=
  Disk.isTree_of_entries fun _ member => absurd member (by simp [State.empty])

/-- The state of a process that has just started, on a disk with a text in one file. -/
def State.holding (t : Text) : State :=
  ⟨⟨[([Name.ofText "book.json"], .file ((Utf8.encode t).getD []))]⟩, [], 0, [], []⟩

theorem State.isTree_holding (t : Text) : (State.holding t).disk.IsTree :=
  Disk.isTree_of_entries fun entry member => by
    obtain rfl := List.mem_singleton.mp member
    rfl

theorem State.fileAt_holding {t : Text} {bytes : Bytes} (encoded : Utf8.encode t = some bytes) :
    (State.holding t).disk.fileAt Env.sample.here ⟨.here, ["book.json"]⟩ = some bytes := by
  rw [State.holding, encoded]
  rfl

namespace Book

theorem isLawful_sample : IsLawful [(Spell.sample.id, Spell.sample)] := by
  refine ⟨?_, by decide, ?_⟩
  · rintro e member
    obtain rfl := List.mem_singleton.mp member
    rfl
  · rintro e member
    obtain rfl := List.mem_singleton.mp member
    exact Spell.isChecked_sample

/-- A request to create the sample spell. -/
def Request.sample : Request :=
  .create ⟨[("name", .str Spell.sample.name), ("description", .str Spell.sample.description),
    ("inputSchema", .obj Spell.sample.inputSchema), ("outputSchema", .obj []),
    ("action", Spell.wireAction Spell.sample.action)], by decide +kernel⟩

end Book

end Grimoire
