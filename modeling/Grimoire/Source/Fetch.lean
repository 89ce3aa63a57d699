import Grimoire.Failure
import Grimoire.Source.Address
import Grimoire.Source.Response

/-!
# Fetching documents

A document on the web is asked for by its address, in its usual form. Where the answer says that the
document has gone to another place, the other place is asked, at most `redirectLimit` times. The text of
the document is its body, read as a whole.

Main statement: `Source.ask_of_answer` (where there is no other place, the first answer counts).
-/

namespace Grimoire.Source

/-- How often a document may have gone to another place. -/
def redirectLimit : Nat := 20

/-- What a reply is worth to the one who has sent the asking on: an address that cannot be asked for is
a mistake in the answer that named it. -/
def Reply.named : Reply → Reply
  | .refused message => .broken ("Invalid URL in location header: " ++ message ++ ".")
  | reply => reply

/-- Asks for an address, and for the next one as long as the answer names one and `left` allows it.
The reply comes with the address that gave it. -/
def ask (web : Text → Reply) (follows : Bool) (left : Nat) (url : Text) : Reply × Text :=
  match web url with
  | .answer response =>
    match follows, response.redirect? with
    | true, some location =>
      match left with
      | 0 => (.broken "Exceeded maximum allowed redirects.", url)
      | left + 1 =>
        let (reply, last) := ask web follows left (Address.next url location)
        (Reply.named reply, last)
    | _, _ => (.answer response, url)
  | reply => (reply, url)

/-- The text of a body, read as a whole in the charset of its answer. -/
def bodyText (charsets : Charsets) (response : Response) (body : Bytes) : Except Failure Text :=
  match Response.decode (response.charset charsets) body with
  | .error (.undecodable e) => .error (.undecodable e)
  | .error (.other message) => .error (.charset message)
  | .ok t => .ok t

/-- The text of the document at a source, given the answer of an address. -/
def text (charsets : Charsets) (source : Text) (response : Response) (url : Text) :
    Except Failure Text :=
  if !response.isSuccess then .error (.source source (.web (response.complaint url)))
  else
    match response.body with
    | .error (.tooLarge limit) => .error (.source source (.tooLarge limit))
    | .error (.broken message) => .error (.source source (.web message))
    | .ok body => bodyText charsets response body

/-- Fetches the document at a source. -/
def fetch (web : Text → Reply) (charsets : Charsets) (follows : Bool) (source : Text) :
    Except Failure Text :=
  match ask web follows redirectLimit (Address.usual source) with
  | (.broken message, _) => .error (.source source (.web message))
  | (.refused message, _) => .error (.address message)
  | (.answer response, last) => text charsets source response last

/-- An address that answers, and not with another place, is the last one that is asked. -/
theorem ask_of_answer {web : Text → Reply} {follows : Bool} {left : Nat} {url : Text}
    {response : Response} (answers : web url = .answer response) (stays : response.redirect? = none) :
    ask web follows left url = (.answer response, url) := by
  rw [ask.eq_def, answers]
  simp only [stays]

end Grimoire.Source
