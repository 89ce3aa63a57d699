import Grimoire.Failure
import Grimoire.Spell.Check

/-!
# The catalog

Examples to start from. An example is a candidate without an identifier; it becomes a spell when it is
given one.

Main statement: `Catalog.names_perm` (every example is listed once).
-/

namespace Grimoire.Catalog

/-- The schema of an object with the properties `properties`, all of them required. -/
def recordSchema (properties : Members) : Json := .obj [
  ("type", .str "object"),
  ("properties", .obj properties),
  ("required", .arr (properties.keys.map Json.str))]

/-- A schema that only asks for a kind. -/
def kindSchema (kind : Text) : Json := .obj [("type", .str kind)]

/-- A candidate for a request. -/
def requestExample (name description : Text) (config : Members) (input output : Json) : Members := [
  ("name", .str name),
  ("description", .str description),
  ("action", .obj [("type", .str "http"), ("config", .obj config)]),
  ("inputSchema", input),
  ("outputSchema", output)]

/-- Issues of a repository. -/
def issues : Members := requestExample "github-fetcher"
  ("Fetches GitHub issues by repository and label. Useful for tracking bugs, "
    ++ "features, and pull requests across multiple repositories.")
  [("url", .str "https://api.github.com/repos/\x7b\x7bowner\x7d\x7d/\x7b\x7brepo\x7d\x7d/issues"),
    ("method", .str "GET"),
    ("headers", .obj [("Accept", .str "application/vnd.github+json")])]
  (recordSchema [("owner", kindSchema "string"), ("repo", kindSchema "string")])
  (kindSchema "array")

/-- The weather of a city. -/
def weather : Members := requestExample "weather-api"
  ("Fetches current weather data for a given city. Returns temperature, conditions, "
    ++ "humidity, and wind speed from OpenWeatherMap API.")
  [("url", .str <| "https://api.openweathermap.org/data/2.5/weather?q=\x7b\x7bcity\x7d\x7d"
      ++ "&appid=\x7b\x7bapiKey\x7d\x7d"),
    ("method", .str "GET")]
  (recordSchema [("city", kindSchema "string"), ("apiKey", kindSchema "string")])
  (kindSchema "object")

/-- The code of the calculator. -/
def calculatorCode : Text := Text.join "\n" [
  "const \x7b a, b, operation \x7d = input;",
  "switch (operation) \x7b",
  "  case 'add': return \x7b result: a + b \x7d;",
  "  case 'subtract': return \x7b result: a - b \x7d;",
  "  case 'multiply': return \x7b result: a * b \x7d;",
  "  case 'divide': return \x7b result: b !== 0 ? a / b : 'Error: Division by zero' \x7d;",
  "  default: return \x7b error: 'Invalid operation' \x7d;",
  "\x7d"]

/-- The operations of the calculator. -/
def operations : List Json :=
  [.str "add", .str "subtract", .str "multiply", .str "divide"]

/-- Arithmetic on two numbers. -/
def calculator : Members := [
  ("name", .str "calculator"),
  ("description", .str <| "Performs basic arithmetic operations on two numbers. Supports addition, "
    ++ "subtraction, multiplication, and division with proper error handling for "
    ++ "division by zero."),
  ("action", .obj [
    ("type", .str "script"),
    ("config", .obj [("runtime", .str "node"), ("code", .str calculatorCode)])]),
  ("inputSchema", recordSchema [
    ("a", kindSchema "number"),
    ("b", kindSchema "number"),
    ("operation", .obj [("type", .str "string"), ("enum", .arr operations)])]),
  ("outputSchema", kindSchema "object")]

/-- The examples by name. -/
def examples : Entries Members :=
  [("github-fetcher", issues), ("weather-api", weather), ("calculator", calculator)]

/-- The names of the examples in order. -/
def names : List Text := examples.sorted.keys

/-- The example with a given name. -/
def find (name : Text) : Except Failure Members :=
  match Entries.find? name examples with
  | some candidate => .ok candidate
  | none => .error (.unknownExample name names)

/-- The spell that an example becomes with an identifier. -/
def instantiate (name id : Text) : Except Failure Spell := do
  let candidate ← find name
  match Spell.check (.obj (Entries.put "id" (.str id) candidate)) with
  | .valid spell => .ok spell
  | .invalid first rest => .error (.invalid first rest)

theorem names_perm : names.Perm examples.keys := (List.mergeSort_perm _ _).map _

end Grimoire.Catalog
