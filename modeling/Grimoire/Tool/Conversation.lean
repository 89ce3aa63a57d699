import Grimoire.Tool.Call

/-!
# Conversations

A client and the server exchange messages. A request brings an identifier and is answered under it; a
notification is not answered. After the introduction, tools are offered once the client has said that it
is ready.

Main statements: `Conversation.answer_ping` (a ping is answered at any time) and
`Conversation.answer_notification` (what brings no identifier is not answered).
-/

namespace Grimoire

/-- What has been said in a conversation: whether the client has declared itself ready. -/
structure Conversation where
  isReady : Bool
  deriving DecidableEq

namespace Conversation

/-- The version of the program. -/
def version : Text := "0.1.0"

/-- The versions of the protocol that are understood, the newest first. -/
def protocolVersions : List Text := ["2025-06-18", "2025-03-26", "2024-11-05"]

/-- The version of the protocol that is spoken, given the one that was asked for. -/
def agreedVersion (asked : Text) : Text :=
  if protocolVersions.contains asked then asked else protocolVersions.head?.getD asked

/-- What the server says of itself. -/
def introduction (asked : Text) : Json := .obj [
  ("protocolVersion", .str (agreedVersion asked)),
  ("capabilities", .obj [
    ("experimental", .obj []),
    ("tools", .obj [("listChanged", .bool false)])]),
  ("serverInfo", .obj [("name", .str "spellbook"), ("version", .str version)])]

/-- A tool as it is offered. -/
def offer (tool : Tool) : Json := .obj [
  ("name", .str tool.name),
  ("description", .str tool.description),
  ("inputSchema", .obj tool.schema)]

/-- The offer of all tools. -/
def offers : Json := .obj [("tools", .arr (Tool.all.map offer))]

/-- The answer of a tool as it is sent. -/
def content (a : Tool.Answer) : Json :=
  let block (t : Text) : Json := .obj [("type", .str "text"), ("text", .str t)]
  .obj [("content", .arr (a.texts.map block)), ("isError", .bool a.isError)]

/-- A reply with a result. -/
def reply (id result : Json) : Json :=
  .obj [("jsonrpc", .str "2.0"), ("id", id), ("result", result)]

/-- A reply that a request makes no sense. -/
def refuse (id : Json) : Json := .obj [
  ("jsonrpc", .str "2.0"),
  ("id", id),
  ("error", .obj [
    ("code", .int (-32602)), ("message", .str "Invalid request parameters"), ("data", .str [])])]

/-- A text among the members of a message. -/
def textAt (key : Text) (members : Members) : Text :=
  ((Entries.find? key members).bind Json.text?).getD []

/-- An object among the members of a message. -/
def objectAt (key : Text) (members : Members) : Members :=
  ((Entries.find? key members).bind Json.members?).getD []

/-- Takes in a notification. -/
def notify (c : Conversation) (method : Text) : Conversation :=
  if method = "notifications/initialized" then ⟨true⟩ else c

/-- Answers a request. -/
def answer (place : Option Text) (c : Conversation) (id : Json) (method : Text) (params : Members) :
    Act Json := do
  if method = "initialize" then return reply id (introduction (textAt "protocolVersion" params))
  else if method = "ping" then return reply id (.obj [])
  else if !c.isReady then return refuse id
  else if method = "tools/list" then return reply id offers
  else if method = "tools/call" then
    return reply id (content (← Tool.call place (textAt "name" params) (objectAt "arguments" params)))
  else return refuse id

/-- Takes in a message, and gives the reply if it is a request. -/
def take (place : Option Text) (c : Conversation) (message : Members) :
    Act (Option Json × Conversation) := do
  let method := textAt "method" message
  match Entries.find? "id" message with
  | none => return (none, c.notify method)
  | some id =>
    let reply ← answer place c id method (objectAt "params" message)
    return (some reply, if method = "initialize" then ⟨false⟩ else c)

/-- Takes in messages one after the other, and gives the replies. -/
def takeAll (place : Option Text) (c : Conversation) : List Members → Act (List Json)
  | [] => return []
  | message :: rest => do
    let (reply?, c) ← take place c message
    let replies ← takeAll place c rest
    return reply?.toList ++ replies

/-- Notes that the server has started. -/
def start (place : Option Text) : Act Unit := do
  Act.note .info .server "serving on stdio"
    [("spells_file", .str (Book.pathOf (← Act.env) place).text)]

/-- Starts the server and takes in messages. -/
def serve (place : Option Text) (messages : List Members) : Act (List Json) := do
  start place
  takeAll place ⟨false⟩ messages

theorem answer_ping (place : Option Text) (c : Conversation) (id : Json) (params : Members) :
    answer place c id "ping" params = pure (reply id (.obj [])) := by
  have : ¬("ping" : Text) = "initialize" := by decide
  simp [answer, this]

theorem answer_notification (place : Option Text) (c : Conversation) {message : Members}
    (h : Entries.find? "id" message = none) :
    take place c message = pure (none, c.notify (textAt "method" message)) := by
  simp [take, h]

end Conversation

end Grimoire
