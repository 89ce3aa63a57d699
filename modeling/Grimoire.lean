import Grimoire.Act
import Grimoire.Archive.Basic
import Grimoire.Archive.Deflate
import Grimoire.Book.Basic
import Grimoire.Book.File
import Grimoire.Bundle.Archive
import Grimoire.Bundle.Basic
import Grimoire.Bundle.Defaults
import Grimoire.Bundle.Folder
import Grimoire.Bundle.Program
import Grimoire.Catalog
import Grimoire.Command.Basic
import Grimoire.Command.Report
import Grimoire.Command.Run
import Grimoire.Console.Markup
import Grimoire.Console.Table
import Grimoire.Console.Width
import Grimoire.Console.Wrap
import Grimoire.Date
import Grimoire.Digest.Bundle
import Grimoire.Digest.Crc32
import Grimoire.Digest.Sha256
import Grimoire.Disk.Basic
import Grimoire.Disk.Change
import Grimoire.Disk.Path
import Grimoire.Entries
import Grimoire.Failure
import Grimoire.Json.Basic
import Grimoire.Json.Printer
import Grimoire.Json.Reader
import Grimoire.Log
import Grimoire.Main
import Grimoire.Number.Binary64
import Grimoire.Number.Decimal
import Grimoire.Proofs.Book.Changes
import Grimoire.Proofs.Book.Races
import Grimoire.Proofs.Book.RoundTrip
import Grimoire.Proofs.Bundle.Program
import Grimoire.Schema.Draft7
import Grimoire.Schema.Pattern
import Grimoire.Source.Address
import Grimoire.Source.Document
import Grimoire.Source.Fetch
import Grimoire.Source.Locator
import Grimoire.Source.Response
import Grimoire.Spell.Advice
import Grimoire.Spell.Basic
import Grimoire.Spell.Check
import Grimoire.Spell.Identifier
import Grimoire.Spell.Placeholders
import Grimoire.Spell.Problem
import Grimoire.Spell.Warning
import Grimoire.Spell.Wire
import Grimoire.Template
import Grimoire.Text.Blank
import Grimoire.Text.Case
import Grimoire.Text.CodePoint
import Grimoire.Text.Printable
import Grimoire.Text.Quoted
import Grimoire.Text.Utf8
import Grimoire.Tool.Basic
import Grimoire.Tool.Call
import Grimoire.Tool.Conversation
import Grimoire.Tool.Shape
import Grimoire.Url.Absolute
import Grimoire.Url.Address
import Grimoire.Url.Compatibility
import Grimoire.Url.Host
import Grimoire.Url.Punycode
import Grimoire.Proofs.Literal
import Grimoire.Proofs.Bundle.Outline
import Grimoire.Proofs.Spell.Acceptance
import Grimoire.Proofs.Book.Kept
import Grimoire.Proofs.Command.Lookup
import Grimoire.Proofs.Command.Adding
import Grimoire.Proofs.Book.Loading
import Grimoire.Proofs.Spell.Storable
import Grimoire.Proofs.Book.Storable
import Grimoire.Proofs.Tool.Creating
import Grimoire.Proofs.Bundle.Writing
import Grimoire.Proofs.Digest.Identity
import Grimoire.Proofs.Tool.Agreement
import Grimoire.Proofs.Command.Contents
import Grimoire.Proofs.Command.Reordering
import Grimoire.Proofs.Calls
import Grimoire.Proofs.Bundle.Interpolation
import Grimoire.Proofs.Schema.Meaning
import Grimoire.Proofs.Tool.Advertised
import Grimoire.Proofs.Spell.Warnings
import Grimoire.Proofs.Book.Skipping
import Grimoire.Proofs.Book.Frame
import Grimoire.Proofs.Text.LineEnds
import Grimoire.Proofs.Json.LineEnds
import Grimoire.Proofs.Source.Downloading
import Grimoire.Proofs.Source.Delivery
import Grimoire.Proofs.Source.Failing
import Grimoire.Proofs.Bundle.Members
import Grimoire.Proofs.Spell.Advice
import Grimoire.Proofs.Archive.Listing
import Grimoire.Proofs.Bundle.Canonical
import Grimoire.Proofs.Command.Exchange
import Grimoire.Proofs.Console.Layout
import Grimoire.Proofs.Command.Faithful
import Grimoire.Proofs.Embedding
import Grimoire.Proofs.Bundle.Guide
import Grimoire.Proofs.Log
