import Grimoire.Bundle.Defaults
import Grimoire.Spell.Placeholders

/-!
# The generated program

The program offers one tool. Every text of the spell that lands in it is written as a literal, and every
text that may carry placeholders as an expression; both take up a part of one line. What else there is
depends only on the kind of the action, on whether results are checked, and on whether there are
placeholders.
-/

namespace Grimoire

namespace Program

open Grimoire.Bundle

/-- The modules that the program uses. -/
def imports : List String := [
  "import \x7b Server \x7d from '@modelcontextprotocol/sdk/server/index.js';",
  "import \x7b StdioServerTransport \x7d from '@modelcontextprotocol/sdk/server/stdio.js';",
  "import \x7b",
  "  CallToolRequestSchema,",
  "  ListToolsRequestSchema",
  "\x7d from '@modelcontextprotocol/sdk/types.js';",
  "import Ajv from 'ajv';",
  ""]

/-- The function that fills the placeholders of a template. -/
def interpolateFunction : List String := [
  "function interpolate(template, vars) \x7b",
  "  return template.replace(/\\\x7b\\\x7b(\\w+)\\\x7d\\\x7d/g, (_, key) => \x7b",
  "    return vars[key] !== undefined ? String(vars[key]) : '';",
  "  \x7d);",
  "\x7d",
  ""]

/-- The function that reads the body of an answer up to a limit. -/
def readBodyFunction : List String := [
  "async function readBodyWithLimit(response, maxBytes) \x7b",
  "  const reader = response.body?.getReader();",
  "  if (!reader) \x7b",
  "    const text = await response.text();",
  "    const size = new TextEncoder().encode(text).byteLength;",
  "    if (size > maxBytes) \x7b",
  "      throw new Error(`Response too large: $\x7bsize\x7d bytes (max: $\x7bmaxBytes\x7d)`);",
  "    \x7d",
  "    return text;",
  "  \x7d",
  "",
  "  const decoder = new TextDecoder();",
  "  const chunks = [];",
  "  let total = 0;",
  "",
  "  while (true) \x7b",
  "    const \x7b done, value \x7d = await reader.read();",
  "    if (done) break;",
  "    total += value.byteLength;",
  "    if (total > maxBytes) \x7b",
  "      await reader.cancel();",
  "      throw new Error(`Response too large: exceeded $\x7bmaxBytes\x7d bytes`);",
  "    \x7d",
  "    chunks.push(decoder.decode(value, \x7b stream: true \x7d));",
  "  \x7d",
  "  chunks.push(decoder.decode());",
  "",
  "  return chunks.join('');",
  "\x7d",
  ""]

/-- The function that words the errors of a schema check. -/
def formatErrorsFunction : List String := [
  "function formatErrors(errors) \x7b",
  "  return (errors || []).map(e => `$\x7be.instancePath || '/'\x7d $\x7be.message\x7d`).join(', ');",
  "\x7d",
  ""]

/-- The check of a result. -/
def outputCheck : List String := [
  "    if (!validateOutput(result)) \x7b",
  "      throw new Error(`Output validation failed: $\x7bformatErrors(validateOutput.errors)\x7d`);",
  "    \x7d"]

/-- What stands in the place of the check of a result. -/
def noOutputCheck : List String := [
  "    // No output schema properties declared: output is not validated"]

/-- The handler of a call up to the check of the result. -/
def callHead : List String := [
  "server.setRequestHandler(CallToolRequestSchema, async (request) => \x7b",
  "  if (request.params.name !== TOOL_NAME) \x7b",
  "    throw new Error(`Unknown tool: $\x7brequest.params.name\x7d`);",
  "  \x7d",
  "",
  "  try \x7b",
  "    const input = request.params.arguments || \x7b\x7d;",
  "",
  "    if (!validateInput(input)) \x7b",
  "      throw new Error(`Invalid input: $\x7bformatErrors(validateInput.errors)\x7d`);",
  "    \x7d",
  "",
  "    const result = await executeAction(input);",
  ""]

/-- The handler of a call behind the check of the result. -/
def callTail : List String := [
  "",
  "    return \x7b",
  "      content: [\x7b",
  "        type: 'text',",
  "        text: JSON.stringify(result, null, 2)",
  "      \x7d]",
  "    \x7d;",
  "  \x7d catch (error) \x7b",
  "    const message = error instanceof Error ? error.message : String(error);",
  "    const details = error instanceof Error && error.stack",
  "      ? error.stack.split('\\n').slice(0, 3).join('\\n')",
  "      : undefined;",
  "    return \x7b",
  "      content: [\x7b",
  "        type: 'text',",
  "        text: JSON.stringify(\x7b error: message, details \x7d, null, 2)",
  "      \x7d],",
  "      isError: true",
  "    \x7d;",
  "  \x7d",
  "\x7d);",
  ""]

/-- The start of the program. -/
def transport : List String := [
  "const transport = new StdioServerTransport();",
  "await server.connect(transport);",
  ""]

/-- A request up to its address. -/
def requestHead : List String := [
  "  const controller = new AbortController();",
  "  const timeout = setTimeout(() => controller.abort(), HTTP_TIMEOUT_MS);",
  "",
  "  try \x7b"]

/-- A request between its address and its options. -/
def requestMiddle : List String := [
  "",
  "    const parsedUrl = new URL(targetUrl);",
  "    if (!['http:', 'https:'].includes(parsedUrl.protocol)) \x7b",
  "      throw new Error(`Protocol not allowed: $\x7bparsedUrl.protocol\x7d. Use http: or https:`);",
  "    \x7d",
  "    if (!ALLOWED_HOSTS.includes('*') &&",
  "        !ALLOWED_HOSTS.includes(parsedUrl.host) &&",
  "        !ALLOWED_HOSTS.includes(parsedUrl.hostname)) \x7b",
  "      throw new Error(`Host not allowed: $\x7bparsedUrl.host\x7d. Allowed: $\x7bALLOWED_HOSTS.join(', ')\x7d`);",
  "    \x7d",
  "",
  "    const response = await fetch(targetUrl, \x7b"]

/-- A request behind its options. -/
def requestTail : List String := [
  "    \x7d);",
  "",
  "    const contentLength = response.headers.get('content-length');",
  "    if (contentLength && parseInt(contentLength, 10) > MAX_RESPONSE_SIZE) \x7b",
  "      throw new Error(`Response too large: $\x7bcontentLength\x7d bytes (max: $\x7bMAX_RESPONSE_SIZE\x7d)`);",
  "    \x7d",
  "",
  "    if (!response.ok) \x7b",
  "      const errorBody = await readBodyWithLimit(response, MAX_RESPONSE_SIZE)",
  "        .catch(() => 'Unable to read error body');",
  "      throw new Error(`HTTP $\x7bresponse.status\x7d $\x7bresponse.statusText\x7d: $\x7berrorBody.slice(0, 500)\x7d`);",
  "    \x7d",
  "",
  "    const text = await readBodyWithLimit(response, MAX_RESPONSE_SIZE);",
  "",
  "    try \x7b",
  "      return JSON.parse(text);",
  "    \x7d catch \x7b",
  "      return \x7b data: text \x7d;",
  "    \x7d",
  "  \x7d catch (err) \x7b",
  "    if (err && err.name === 'AbortError') \x7b",
  "      throw new Error(`Request timed out after $\x7bHTTP_TIMEOUT_MS\x7dms`);",
  "    \x7d",
  "    throw err;",
  "  \x7d finally \x7b",
  "    clearTimeout(timeout);",
  "  \x7d"]

/-- A script up to its code. -/
def scriptHead : List String := [
  "  // Runs with full Node.js privileges. Deploy trusted code only.",
  "  const AsyncFunction = Object.getPrototypeOf(async function () \x7b\x7d).constructor;",
  "  let fn;",
  "  try \x7b"]

/-- A script behind its code. -/
def scriptTail : List String := [
  "  \x7d catch (err) \x7b",
  "    if (err instanceof SyntaxError) \x7b",
  "      throw new Error(`Script syntax error: $\x7berr.message\x7d`);",
  "    \x7d",
  "    throw err;",
  "  \x7d",
  "",
  "  let timeout;",
  "  try \x7b",
  "    const execution = Promise.resolve().then(() => fn(input));",
  "    const timer = new Promise((_, reject) => \x7b",
  "      timeout = setTimeout(",
  "        () => reject(new Error(`Script timed out after $\x7bSCRIPT_TIMEOUT_MS\x7dms`)),",
  "        SCRIPT_TIMEOUT_MS",
  "      );",
  "    \x7d);",
  "    const result = await Promise.race([execution, timer]);",
  "",
  "    if (result === undefined) \x7b",
  "      return \x7b success: true \x7d;",
  "    \x7d",
  "    let serialized;",
  "    try \x7b",
  "      serialized = JSON.stringify(result);",
  "    \x7d catch (err) \x7b",
  "      throw new Error(`Script result is not JSON-serializable: $\x7berr.message\x7d`);",
  "    \x7d",
  "    if (serialized === undefined) \x7b",
  "      throw new Error(`Script result is not JSON-serializable: $\x7btypeof result\x7d`);",
  "    \x7d",
  "    return result;",
  "  \x7d finally \x7b",
  "    if (timeout) clearTimeout(timeout);",
  "  \x7d"]

/-- The part of the program that announces its one tool. -/
def announcement : List Text := [
  "const server = new Server(\x7b",
  "  name: TOOL_NAME,",
  "  version: " ++ Script.literal packageVersion,
  "\x7d, \x7b",
  "  capabilities: \x7b tools: \x7b\x7d \x7d",
  "\x7d);",
  "",
  "server.setRequestHandler(ListToolsRequestSchema, async () => (\x7b",
  "  tools: [\x7b",
  "    name: TOOL_NAME,",
  "    description: TOOL_DESCRIPTION,",
  "    inputSchema",
  "  \x7d]",
  "\x7d));",
  ""]

/-- The option that holds the headers, if there are any. -/
def headerOptions (headers : Entries Text) : List Text :=
  let line (entry : Text × Text) : Text :=
    "  " ++ Script.literal entry.1 ++ ": " ++ Script.expression entry.2
  if headers.isEmpty then []
  else ["headers: \x7b\n" ++ Text.join ",\n" (headers.map line) ++ "\n\x7d"]

/-- The option that holds the body, if one is sent. -/
def bodyOptions : Option Text → List Text
  | none => []
  | some body => ["body: " ++ Script.expression body]

/-- The options of a request, each with the lines it takes. -/
def requestOptions (r : HttpRequest) : List Text :=
  "signal: controller.signal" :: ("method: " ++ Script.literal r.method.name)
    :: (headerOptions r.headerEntries ++ bodyOptions r.sentBody)

/-- Fixed lines. -/
def fixed (ls : List String) : List Text := ls.map Text.ofString

/-- The lines that carry out an action. -/
def actionLines : Action → List Text
  | .http r =>
    fixed requestHead ++ ("    const targetUrl = " ++ Script.expression r.url ++ ";")
      :: (fixed requestMiddle ++ Text.indent "      " (Text.join ",\n" (requestOptions r))
      :: fixed requestTail)
  | .script code =>
    fixed scriptHead ++ ("    fn = new AsyncFunction('input', " ++ Script.literal code ++ ");")
      :: fixed scriptTail

/-- The line that reads a setting. -/
def settingLine (name : Text) (s : Setting) : Text :=
  "const " ++ name ++ " = parseInt(process.env." ++ s.name ++ ", 10) || "
    ++ Text.ofNat s.value ++ ";"

/-- The lines that read the settings an action depends on. -/
def settingLines : Action → List Text
  | .http _ => [
      "const ALLOWED_HOSTS = process.env." ++ hostsVariable,
      "  ? process.env." ++ hostsVariable
        ++ ".split(',').map(h => h.trim()).filter(Boolean)",
      "  : [" ++ Script.literal defaultHosts ++ "];",
      settingLine "MAX_RESPONSE_SIZE" responseSize,
      settingLine "HTTP_TIMEOUT_MS" requestTime,
      ""]
  | .script _ => [settingLine "SCRIPT_TIMEOUT_MS" scriptTime, ""]

/-- The helper functions that an action needs. -/
def helperLines (a : Action) : List String :=
  (if a.interpolates then interpolateFunction else [])
    ++ (match a with
      | .http _ => readBodyFunction
      | .script _ => [])
    ++ formatErrorsFunction

/-- The lines with which the program of a spell starts. -/
def headLines (s : Spell) : List Text := [
  "",
  "const TOOL_NAME = " ++ Script.literal s.name ++ ";",
  "const TOOL_DESCRIPTION = " ++ Script.literal s.description ++ ";",
  "",
  "// JSON Schema validation using Ajv",
  "const ajv = new Ajv(\x7b allErrors: true, coerceTypes: true \x7d);",
  "const inputSchema = " ++ Script.value (.obj s.inputSchema) ++ ";",
  "const outputSchema = " ++ Script.value (.obj s.outputSchema) ++ ";",
  "const validateInput = ajv.compile(inputSchema);"]

/-- The line that prepares the check of results. -/
def outputLines (s : Spell) : List String :=
  if s.checksOutput then ["const validateOutput = ajv.compile(outputSchema);"] else []

/-- The lines of the program of a spell. A value or the options of a request may take several lines. -/
def lines (s : Spell) : List Text :=
  fixed imports ++ headLines s ++ fixed (outputLines s)
    ++ fixed ["", "// Runtime limits, configurable via environment variables"]
    ++ settingLines s.action ++ fixed (helperLines s.action) ++ announcement
    ++ fixed callHead ++ fixed (if s.checksOutput then outputCheck else noOutputCheck)
    ++ fixed callTail ++ fixed ["async function executeAction(input) \x7b"]
    ++ actionLines s.action ++ fixed ["\x7d", ""] ++ fixed transport

/-- The program of a spell. -/
def text (s : Spell) : Text := Text.join "\n" (lines s)

end Program

end Grimoire
