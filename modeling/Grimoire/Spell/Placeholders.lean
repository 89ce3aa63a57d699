import Grimoire.Spell.Basic
import Grimoire.Template

/-!
# Placeholders of a request

The address, the header values and the body of a request are templates. Values are filled in where a
template that is sent has a placeholder; what is declared is compared with every key that occurs.
-/

namespace Grimoire

/-- Whether a request fills placeholders in; a body that is not sent does not count. -/
def HttpRequest.interpolates (r : HttpRequest) : Bool :=
  Template.hasPlaceholder r.url || r.sentBody.any Template.hasPlaceholder
    || r.headerEntries.values.any Template.hasPlaceholder

/-- The keys of the placeholders of a request, each at its first place. The body counts also where it is
not sent. -/
def HttpRequest.placeholders (r : HttpRequest) : List Text :=
  let texts := r.url :: r.headerEntries.values ++ [r.body.getD []]
  let seen : Entries Unit := Entries.putAll [] ((texts.flatMap Template.keys).map fun key => (key, ()))
  seen.keys

/-- Whether an action fills placeholders in. -/
def Action.interpolates : Action → Bool
  | .http r => r.interpolates
  | .script _ => false

end Grimoire
