import Grimoire.Entries
import Grimoire.Text.Case
import Grimoire.Text.Blank
import Grimoire.Text.Utf8

/-!
# Answers from the web

An answer has a status, headers and a body that arrives in chunks. The status says whether the body
counts; the content type says how it is read; a body over the limit is refused, however it is cut into
chunks.

Main statement: `Response.collect_append` (collecting can stop between two chunks and go on).
-/

namespace Grimoire

/-- An answer. If its body does not come to an end, `breakOff` tells what went wrong behind the chunks.
-/
structure Response where
  status : Nat
  headers : Entries Text
  chunks : List Bytes
  breakOff : Option Text

/-- What asking gives: an answer, what went wrong on the way, or why an address cannot be asked for at
all. -/
inductive Reply where
  | answer (response : Response)
  | broken (message : Text)
  | refused (message : Text)

/-- Charsets by their names in small letters: how they read bytes, or what they say about bytes that
they cannot read. -/
abbrev Charsets := Text → Option (Bytes → Except Text Text)

/-- What has been collected of a body, with the last byte first. -/
structure Buffer where
  reversed : Bytes
  length : Nat
  length_eq : reversed.length = length

namespace Buffer

/-- Nothing yet. -/
def empty : Buffer := ⟨[], 0, rfl⟩

/-- Takes in a chunk. -/
def add (b : Buffer) (chunk : Bytes) : Buffer where
  reversed := chunk.reverse ++ b.reversed
  length := b.length + chunk.length
  length_eq := by rw [List.length_append, List.length_reverse, b.length_eq, Nat.add_comm]

/-- The bytes from the first one on. -/
def bytes (b : Buffer) : Bytes := b.reversed.reverse

@[simp] theorem bytes_empty : empty.bytes = [] := rfl

@[simp] theorem bytes_add (b : Buffer) (chunk : Bytes) : (b.add chunk).bytes = b.bytes ++ chunk := by
  simp [add, bytes]

theorem length_bytes (b : Buffer) : b.bytes.length = b.length := by
  rw [bytes, List.length_reverse, b.length_eq]

end Buffer

namespace Response

/-- The phrases of statuses. -/
def phrases : List (Nat × String) := [
  (100, "Continue"), (101, "Switching Protocols"), (102, "Processing"), (103, "Early Hints"),
  (200, "OK"), (201, "Created"), (202, "Accepted"), (203, "Non-Authoritative Information"),
  (204, "No Content"), (205, "Reset Content"), (206, "Partial Content"), (207, "Multi-Status"),
  (208, "Already Reported"), (226, "IM Used"), (300, "Multiple Choices"),
  (301, "Moved Permanently"), (302, "Found"), (303, "See Other"), (304, "Not Modified"),
  (305, "Use Proxy"), (307, "Temporary Redirect"), (308, "Permanent Redirect"),
  (400, "Bad Request"), (401, "Unauthorized"), (402, "Payment Required"), (403, "Forbidden"),
  (404, "Not Found"), (405, "Method Not Allowed"), (406, "Not Acceptable"),
  (407, "Proxy Authentication Required"), (408, "Request Timeout"), (409, "Conflict"),
  (410, "Gone"), (411, "Length Required"), (412, "Precondition Failed"),
  (413, "Request Entity Too Large"), (414, "Request-URI Too Long"),
  (415, "Unsupported Media Type"), (416, "Requested Range Not Satisfiable"),
  (417, "Expectation Failed"), (418, "I'm a teapot"), (421, "Misdirected Request"),
  (422, "Unprocessable Entity"), (423, "Locked"), (424, "Failed Dependency"), (425, "Too Early"),
  (426, "Upgrade Required"), (428, "Precondition Required"), (429, "Too Many Requests"),
  (431, "Request Header Fields Too Large"), (451, "Unavailable For Legal Reasons"),
  (500, "Internal Server Error"), (501, "Not Implemented"), (502, "Bad Gateway"),
  (503, "Service Unavailable"), (504, "Gateway Timeout"), (505, "HTTP Version Not Supported"),
  (506, "Variant Also Negotiates"), (507, "Insufficient Storage"), (508, "Loop Detected"),
  (510, "Not Extended"), (511, "Network Authentication Required")]

/-- The phrase of a status, empty if it has none. -/
def phrase (status : Nat) : Text :=
  ((phrases.find? fun entry => entry.1 = status).map fun entry => Text.ofString entry.2).getD []

/-- The kind of a status in words. -/
def statusKind (status : Nat) : Text :=
  match status / 100 with
  | 1 => "Informational response"
  | 3 => "Redirect response"
  | 4 => "Client error"
  | 5 => "Server error"
  | _ => "Invalid status code"

/-- The value of a header; names of headers do not depend on case. -/
def header? (r : Response) (name : Text) : Option Text :=
  (List.find? (fun entry => Text.lower entry.1 = name) r.headers).map Prod.snd

/-- Where the document has gone to, if the status says so. -/
def redirect? (r : Response) : Option Text :=
  if [301, 302, 303, 307, 308].contains r.status then r.header? "location" else none

/-- Whether the status says that the body is the document. -/
def isSuccess (r : Response) : Bool := r.status / 100 = 2

/-- What to tell about an answer that does not bring the document. -/
def complaint (r : Response) (url : Text) : Text :=
  statusKind r.status ++ " '" ++ Text.ofNat r.status ++ " " ++ phrase r.status ++ "' for url '" ++ url
    ++ "'"
    ++ (match r.redirect? with
      | some location => "\nRedirect location: '" ++ location ++ "'"
      | none => [])
    ++ "\nFor more information check: https://developer.mozilla.org/en-US/docs/Web/HTTP/Status/"
    ++ Text.ofNat r.status

/-- The greatest size of a document in bytes. -/
def sizeLimit : Nat := 1048576

/-- Takes in chunks until there are more bytes than the limit. -/
def collect (limit : Nat) (b : Buffer) : List Bytes → Buffer
  | [] => b
  | chunk :: chunks => if limit < b.length then b else collect limit (b.add chunk) chunks

/-- Why there is no body to read. -/
inductive BodyFault where
  | tooLarge (limit : Nat)
  | broken (message : Text)

/-- The body, unless it is larger than the limit or breaks off. -/
def body (r : Response) : Except BodyFault Bytes :=
  let b := collect sizeLimit .empty r.chunks
  if sizeLimit < b.length then .error (.tooLarge sizeLimit)
  else
    match r.breakOff with
    | some message => .error (.broken message)
    | none => .ok b.bytes

/-- How the bytes of a body are read. -/
inductive Charset where
  | utf8
  | latin1
  | ascii
  | other (read : Bytes → Except Text Text)

/-- The charset with a given name in small letters; names that are not known mean UTF-8. -/
def Charset.ofName (known : Charsets) (name : Text) : Charset :=
  let plain := name.map fun c => if c = .scalar '_' then .scalar '-' else c
  let isOneOf (names : List String) : Bool := names.any fun name => Text.ofString name = plain
  if isOneOf ["utf-8", "utf8", "utf", "u8"] then .utf8
  else if isOneOf ["latin-1", "latin1", "iso-8859-1", "iso8859-1", "8859", "cp819", "l1"] then .latin1
  else if isOneOf ["ascii", "us-ascii", "646"] then .ascii
  else
    match known name with
    | some read => .other read
    | none => .utf8

/-- A text without quotes around it. -/
def unquote (t : Text) : Text :=
  if 2 ≤ t.length ∧ t.head? = some (.scalar '"') ∧ t.getLast? = some (.scalar '"') then
    (t.drop 1).dropLast
  else t

/-- The charset that a content type names. -/
def charsetOf (known : Charsets) (contentType : Text) : Charset :=
  let parameter? (part : Text) : Option Text :=
    match Text.splitOn '=' part with
    | key :: value :: rest =>
      if Text.lower (Text.trim key) = "charset" then
        some (Text.lower (unquote (Text.trim (Text.join "=" (value :: rest)))))
      else none
    | _ => none
  match (Text.splitOn ';' contentType).tail.findSome? parameter? with
  | some name => Charset.ofName known name
  | none => .utf8

/-- The charset of an answer. -/
def charset (known : Charsets) (r : Response) : Charset :=
  ((r.header? "content-type").map (charsetOf known)).getD .utf8

/-- Why bytes are no text in a charset. -/
inductive CharsetFault where
  | undecodable (error : Utf8.DecodeError)
  | other (message : Text)

/-- Reads bytes in a charset. -/
def decode (charset : Charset) (bytes : Bytes) : Except CharsetFault Text :=
  match charset with
  | .utf8 => (Utf8.decode bytes).mapError .undecodable
  | .latin1 => .ok (bytes.map fun b => .scalar (Char.ofNat b.toNat))
  | .ascii =>
    match bytes.find? (128 ≤ ·) with
    | none => .ok (bytes.map fun b => .scalar (Char.ofNat b.toNat))
    | some b => .error (.undecodable ⟨(bytes.takeWhile (· < 128)).length, 1, b, .invalidStart⟩)
  | .other read => (read bytes).mapError .other

theorem collect_of_large {limit : Nat} {b : Buffer} (large : limit < b.length)
    (chunks : List Bytes) : collect limit b chunks = b := by
  cases chunks with
  | nil => rfl
  | cons chunk chunks => rw [collect, if_pos large]

theorem collect_append (limit : Nat) (b : Buffer) (front rest : List Bytes) :
    collect limit b (front ++ rest) = collect limit (collect limit b front) rest := by
  induction front generalizing b with
  | nil => rfl
  | cons chunk front ih =>
    rw [List.cons_append, collect, collect]
    split
    · next large => exact (collect_of_large large rest).symm
    · exact ih _

end Response

end Grimoire
