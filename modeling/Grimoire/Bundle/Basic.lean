import Grimoire.Bundle.Program
import Grimoire.Text.Case

/-!
# Bundles

A bundle is a set of text files by name. The bundle of a spell holds what is needed to build and run the
tool: how the image is built, the manifest, the program, and a guide.

Main statement: `Bundle.names_ofSpell` (the files of a bundle are the same for every spell).
-/

namespace Grimoire

/-- Text files by name. -/
abbrev Bundle := Entries Text

namespace Spell

/-- The name of the generated package. -/
def packageName (s : Spell) : Text := "spell-" ++ s.name

/-- The name of the image, which has no capitals. -/
def imageName (s : Spell) : Text := Text.lower s.name

end Spell

namespace Bundle

/-- How the image is built. -/
def imageText : Text := Text.join "\n" [
  "FROM " ++ baseImage,
  "WORKDIR /app",
  "COPY " ++ manifestFile ++ " ./",
  "RUN npm install --omit=dev",
  "COPY . .",
  "CMD [\"node\", \"" ++ programFile ++ "\"]",
  ""]

/-- The manifest of a package. -/
def manifest (packageName : Text) : Json := .obj [
  ("name", .str packageName),
  ("version", .str packageVersion),
  ("type", .str "module"),
  ("main", .str programFile),
  ("dependencies", .obj [
    ("@modelcontextprotocol/sdk", .str "^1.0.0"),
    ("ajv", .str "^8.12.0")])]

/-- The text of the manifest of a spell. -/
def manifestText (s : Spell) : Text := Script.jsonBlock (manifest s.packageName) ++ "\n"

/-- The object with which a client registers the tool. -/
def registration (s : Spell) : Json := .obj [
  ("mcpServers", .obj [
    (s.name, .obj [
      ("command", .str "docker"),
      ("args", .arr [.str "run", .str "--rm", .str "-i", .str s.imageName])])])]

/-- What the guide says on security. -/
def securityNotice : Action → Text
  | .script _ =>
    "## Security Notice\n\n"
      ++ "This tool executes JavaScript code with full Node.js privileges. Only run this tool if you "
      ++ "trust the source code. For production use with untrusted inputs, run it in a sandboxed "
      ++ "runtime or an isolated container.\n\n"
      ++ "- Script timeout: " ++ secondsText scriptTime.value ++ " (`" ++ scriptTime.name ++ "`)"
  | .http _ =>
    "## Security Notice\n\n"
      ++ "This tool makes HTTP requests to external services. The following security measures are in "
      ++ "place:\n\n"
      ++ "- Request timeout: " ++ secondsText requestTime.value ++ " (`" ++ requestTime.name
      ++ "`)\n"
      ++ "- Response size limit: " ++ sizeText responseSize.value ++ " (`" ++ responseSize.name
      ++ "`)\n"
      ++ "- Only `http:` and `https:` URLs are requested\n"
      ++ "- Host allowlist: set `" ++ hostsVariable ++ "` to restrict requests to specific hosts"

/-- A value in a fenced block. -/
def fenced (v : Json) : List Text := ["```json", Script.jsonBlock v, "```"]

/-- A row of the table of settings. -/
def settingRow (name value description : Text) : Text :=
  "| `" ++ name ++ "` | " ++ value ++ " | " ++ description ++ " |"

/-- The row of a setting with a number. -/
def numberRow (s : Setting) (description : Text) : Text :=
  settingRow s.name ("`" ++ Text.ofNat s.value ++ "`") description

/-- The guide up to the registration. -/
def guideHead (s : Spell) : List Text := [
  "# " ++ s.name, "", s.description, "", securityNotice s.action, "",
  "## Installation", "", "Build the `" ++ s.packageName ++ "` image:", "",
  "```bash", "docker build -t " ++ s.imageName ++ " .", "```", "",
  "## Usage", "",
  "Add to your MCP client configuration (for Kiro: `.kiro/settings/mcp.json`):", ""]

/-- The guide behind the schemas. -/
def guideTail (s : Spell) : List Text := [
  "", "## Configuration", "", "Configure via environment variables:", "",
  "| Variable | Default | Description |",
  "|----------|---------|-------------|",
  settingRow hostsVariable ("`" ++ defaultHosts ++ "` (all)") "Comma-separated list of allowed hosts",
  numberRow responseSize ("Max response size in bytes (" ++ sizeText responseSize.value ++ ")"),
  numberRow requestTime "HTTP request timeout in milliseconds",
  numberRow scriptTime "Script execution timeout in milliseconds",
  "", "Example:", "",
  "```bash",
  hostsVariable ++ "=api.github.com,api.example.com docker run --rm -i " ++ s.imageName,
  "```", ""]

/-- A heading with a value below it. -/
def schemaSection (heading : Text) (v : Json) : List Text := "" :: ("## " ++ heading) :: "" :: fenced v

/-- The guide of a spell. A text or a value of the spell may take several lines. -/
def guideLines (s : Spell) : List Text :=
  guideHead s ++ fenced (registration s)
    ++ schemaSection "Input Schema" (.obj s.inputSchema)
    ++ schemaSection "Output Schema" (.obj s.outputSchema) ++ guideTail s

/-- The text of the guide of a spell. -/
def guideText (s : Spell) : Text := Text.join "\n" (guideLines s)

/-- The bundle of a spell. -/
def ofSpell (s : Spell) : Bundle := [
  (imageFile, imageText),
  (manifestFile, manifestText s),
  (programFile, Program.text s),
  (guideFile, guideText s)]

theorem names_ofSpell (s : Spell) :
    (ofSpell s).keys = [imageFile, manifestFile, programFile, guideFile] := rfl

end Bundle

end Grimoire
