import Grimoire.Book.File
import Grimoire.Bundle.Folder
import Grimoire.Tool.Basic

/-!
# Calling tools

A call names a tool and brings arguments. The arguments are checked first; then the tool runs. Whatever
fails on the way becomes an answer that says so.

Main statements: `Tool.call_unknown` (a name that no tool has is refused) and `Tool.listText_nil`.
-/

namespace Grimoire.Tool

/-- How many code points of a program are shown. -/
def previewLength : Nat := 500

/-- How many code points of a description are listed. -/
def listedLength : Nat := 80

/-- What is said of a spell that has been created. -/
def summary (s : Spell) (bundle : Bundle) (p : Path) : Text :=
  "Spell \"" ++ s.name ++ "\" created.\n\nGenerated files:\n"
    ++ Text.join "\n" (bundle.keys.map fun name => "  - " ++ name)
    ++ "\n\nPersisted to: " ++ p.text
    ++ "\n\nNext steps:\n1. Save the generated files to a directory\n2. Run: docker build -t "
    ++ s.imageName ++ " .\n3. Register it with your MCP client under \"" ++ s.name
    ++ "\" (command \"docker\", args [\"run\", \"--rm\", \"-i\", \"" ++ s.imageName ++ "\"])"

/-- A file of a bundle below its name. -/
def shownFile (name content : Text) : Text := "--- " ++ name ++ " ---\n" ++ content

/-- What is shown of the files of a bundle. -/
def preview (bundle : Bundle) : Text :=
  let file (name : Text) : Text := (Entries.find? name bundle).getD []
  "Generated Files:\n\n"
    ++ shownFile Bundle.imageFile (file Bundle.imageFile) ++ "\n"
    ++ shownFile Bundle.manifestFile (file Bundle.manifestFile) ++ "\n"
    ++ shownFile Bundle.programFile ((file Bundle.programFile).take previewLength) ++ "...\n\n("
    ++ Bundle.guideFile ++ " also generated)"

/-- Creates a spell from arguments, under a new identifier, and gives the texts of the answer. -/
def runCreate (place : Option Text) (arguments : Members) : Act (List Text) := do
  let id ← Act.drawId
  let s ← Book.check (.obj (Entries.put "id" (.str id) (Entries.erase "id" arguments)))
  let book ← Book.load place
  match book.named? s.name with
  | some old => throw (.duplicateName s.name old.id)
  | none =>
    let bundle ← Bundle.generate s
    let p ← Book.save place (book.add s)
    Act.note .info .server "spell created" [("spell", .str s.name), ("id", .str s.id)]
    return [summary s bundle p, preview bundle]

/-- The list of the spells of a book. -/
def listText (book : Book) : Text :=
  if book.isEmpty then
    "No spells created yet.\n\nUse create_spell to summon your first MCP tool!"
  else
    let row (s : Spell) : Text :=
      "  " ++ s.name ++ "\n     " ++ s.description.take listedLength ++ "..."
    "Your Spellbook (" ++ Text.ofNat book.length ++ " spell"
      ++ (if book.length = 1 then "" else "s") ++ "):\n\n"
      ++ Text.join "\n\n" (book.byName.map row)

/-- Lists the spells of the book at a place. -/
def runList (place : Option Text) : Act Text := do return listText (← Book.load place)

/-- What a call answers. -/
structure Answer where
  isError : Bool
  texts : List Text

/-- Runs the tool with a given name. -/
def run (place : Option Text) (name : Text) (arguments : Members) : Act (List Text) := do
  Act.note .info .server "tool call" [("tool", .str name)]
  match find? name with
  | some .createSpell => runCreate place arguments
  | some .listSpells => return [← runList place]
  | none => throw (.unknownTool name)

/-- Why arguments are refused before a tool runs. -/
def refusal? (name : Text) (arguments : Members) : Option Text :=
  ((find? name).bind fun tool => tool.arguments.complaint? (.obj arguments)).map fun complaint =>
    "Input validation error: " ++ complaint.message

/-- Calls the tool with a given name. -/
def call (place : Option Text) (name : Text) (arguments : Members) : Act Answer :=
  match refusal? name arguments with
  | some t => return ⟨true, [t]⟩
  | none =>
    tryCatch (do return ⟨false, ← run place name arguments⟩) fun failure =>
      return ⟨true, [failure.message]⟩

theorem listText_nil :
    listText [] = "No spells created yet.\n\nUse create_spell to summon your first MCP tool!" := rfl

theorem call_unknown (place : Option Text) {name : Text} (h : find? name = none)
    (arguments : Members) (env : Env) (s : State) :
    ((call place name arguments).run env s).1 = .ok ⟨true, ["Unknown tool: " ++ name]⟩ := by
  simp only [call, refusal?, h, Option.bind_none, Option.map_none, run]
  rfl

end Grimoire.Tool
