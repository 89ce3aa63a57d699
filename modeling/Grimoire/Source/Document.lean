import Grimoire.Act
import Grimoire.Source.Fetch

/-!
# Documents

A candidate is read from a document: the input, a file or a document on the web. Whatever the source,
the text of the document is read as one JSON value. Line ends of files and of the input are made one
line feed each before that.

Main statement: `Source.parse_ok` (a text that reads as a value gives that value from every source).
-/

namespace Grimoire.Source

/-- The text of bytes, with one line feed for each line end. -/
def localText (bytes : Bytes) : Except Failure Text :=
  match Utf8.decode bytes with
  | .ok t => .ok (Text.unixNewlines t)
  | .error e => .error (.undecodable e)

/-- The text of a file, given its bytes or what stands in the way of them. -/
def fileText (source : Text) : Except DiskError Bytes → Except Failure Text
  | .ok bytes => localText bytes
  | .error e =>
    if e.obstacle.number?.isNone then .error (.disk e)
    else .error (.source source (.obstacle e.obstacle))

/-- The value of the text of a source. -/
def parse (room : Nat) (source : Text) (t : Text) : Except Failure Json :=
  match Json.read room t with
  | .ok v => .ok v
  | .error (.malformed e) => .error (.source source (.malformed e))
  | .error e => .error (.unread e)

/-- The text of a source: a dash means the input, an address the web, anything else a file. -/
def readText (source : Text) : Act Text := do
  if source = "-" then Act.ofExcept (localText (← Act.takeInput))
  else
    match Locator.isWeb source with
    | .error fault => throw (.locator fault)
    | .ok isWeb =>
      let env ← Act.env
      if isWeb then Act.ofExcept (fetch env.web env.charsets env.followsMoves source)
      else Act.ofExcept (fileText source ((← Act.state).disk.contentAt env.here (Path.ofText source)))

/-- The candidate in the document of a source. -/
def read (source : Text) : Act Json := do
  let t ← readText source
  Act.ofExcept (parse (← Act.env).rooms.source source t)

theorem parse_ok {room : Nat} {source t : Text} {v : Json} (h : Json.read room t = .ok v) :
    parse room source t = .ok v := by simp [parse, h]

end Grimoire.Source
