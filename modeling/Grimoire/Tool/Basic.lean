import Grimoire.Tool.Shape

/-!
# Tools

The tools that the server offers: one that creates spells and one that lists them. A tool has a name, a
description and the shape of its arguments.

Main statement: `Tool.find?_name` (a tool is found under its own name).
-/

namespace Grimoire

/-- The tools. -/
inductive Tool where
  | createSpell
  | listSpells
  deriving DecidableEq

namespace Tool

/-- The tools in the order in which they are offered. -/
def all : List Tool := [createSpell, listSpells]

/-- The name of a tool. -/
def name : Tool → Text
  | createSpell => "create_spell"
  | listSpells => "list_spells"

/-- The tool with a given name. -/
def find? (t : Text) : Option Tool := all.find? fun tool => tool.name = t

/-- The description of a tool. -/
def description : Tool → Text
  | createSpell =>
    "Create a new MCP tool from a spell definition. Generates Dockerfile, "
      ++ "package.json, index.js, and README.md."
  | listSpells => "List all created spells with their names and descriptions."

/-- The shape of an action. -/
def actionShape : Shape :=
  .object (some "Action configuration (HTTP or Script)")
    (some [
      ("type", .text "Action type" ["http", "script"] none false),
      ("config", .object
        (some <| "http: \x7burl, method, headers?, body?\x7d; "
          ++ "script: \x7bruntime: \"node\", code\x7d") none [])])
    ["type", "config"]

/-- The fields of a spell, as arguments. -/
def spellFields : List (Text × Shape) := [
  ("name", .text "Tool name: letters, numbers and hyphens (3-50 characters)" []
    (some (Spell.minNameLength, Spell.maxNameLength)) true),
  ("description", .text "Tool description (100-500 characters)" []
    (some (Spell.minDescriptionLength, Spell.maxDescriptionLength)) false),
  ("inputSchema", .object (some "JSON Schema for tool input") none []),
  ("outputSchema", .object (some "JSON Schema for tool output") none []),
  ("action", actionShape)]

/-- The shape of the arguments of a tool. -/
def arguments : Tool → Shape
  | createSpell => .object none (some spellFields) (spellFields.map Prod.fst)
  | listSpells => .object none (some []) []

/-- The head of the schema of arguments. -/
def schemaHead : Tool → Members
  | createSpell => [
      ("$schema", .str "https://json-schema.org/draft/2020-12/schema"),
      ("title", .str "create_spell arguments")]
  | listSpells => []

/-- The schema of the arguments of a tool. -/
def schema (tool : Tool) : Members := tool.schemaHead ++ tool.arguments.schema

theorem find?_name (tool : Tool) : find? tool.name = some tool := by
  cases tool <;> decide

end Tool

end Grimoire
