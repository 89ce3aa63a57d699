import Grimoire.Bundle.Basic
import Grimoire.Proofs.Book.Sample
import Grimoire.Proofs.Json.Outcome
import Grimoire.Proofs.Json.Quoting
import Grimoire.Proofs.Template

/-!
# The blocks of a guide

A block of a guide ends at the next line that starts with a fence. No line of a printed value does
(`Bundle.not_isFence_pretty`), because what stands first on it, behind its spaces, belongs to the
notation and a backtick does not. So each block of a guide holds one whole value, and is read as it
(`Bundle.guideText_blocks`).
-/

namespace Grimoire.Bundle

open Json Script

/-- The line that opens a block with a value. -/
def opening : Text := "```json"

/-- The line that closes a block. -/
def fence : Text := "```"

/-- Whether a line starts with a fence, behind its spaces. -/
def isFence (line : Text) : Bool := fence.isPrefixOf (line.dropWhile (· = .scalar ' '))

/-- The text of the block that starts with the first of some lines. It has to be closed. -/
def block? (lines : List Text) : Option Text :=
  if lines.any isFence then some (Text.join "\n" (lines.takeWhile fun l => !isFence l)) else none

/-- Whether a document has a block behind some lines that holds a printed value, and is read as it by
every reader that goes as deep as the value. -/
def HoldsBlock (document : Text) (front : List Text) (v : Json) : Prop :=
  ∃ rest, document.lines = front ++ opening :: rest ∧ block? rest = some (pretty v) ∧
    ReadsAs (pretty v) v

/-! ## Blocks of printed values -/

theorem not_isFence_of_head {line : Text}
    (own : ∀ c ∈ (line.dropWhile (· = .scalar ' ')).head?, isForeign c = false) :
    isFence line = false := by
  rw [isFence, Bool.eq_false_iff]
  intro fence
  obtain ⟨rest, start⟩ := List.isPrefixOf_iff_prefix.mp fence
  rw [← start] at own
  exact absurd (own (.scalar '`') rfl) (by decide)

/-- No line of a printed value starts with a fence. -/
theorem not_isFence_pretty (v : Json) : ∀ l ∈ (pretty v).lines, isFence l = false := fun _ line =>
  not_isFence_of_head
    (head_of_line (isSettled_print isReadable_indented isWhole_escapeBasic 0 v) line)

/-- The block of a printed value ends at its own fence. -/
theorem block?_pretty (v : Json) (rest : List Text) :
    block? ((pretty v).lines ++ fence :: rest) = some (pretty v) := by
  have inner : ∀ l ∈ (pretty v).lines, (!isFence l) = true := fun l line => by
    rw [not_isFence_pretty v l line]
    rfl
  have closed : ((pretty v).lines ++ fence :: rest).any isFence = true := by
    rw [List.any_append, List.any_cons, show isFence fence = true by decide, Bool.true_or,
      Bool.or_true]
  have ends : (fence :: rest).takeWhile (fun l => !isFence l) = [] :=
    List.takeWhile_cons_of_neg (by decide)
  rw [block?, if_pos closed, List.takeWhile_append_of_pos inner, ends, List.append_nil]
  exact congrArg some (Text.join_splitOn _ (pretty v))

/-- The lines of a value in a fenced block. -/
def fencedLines (v : Json) : List Text := opening :: ((pretty v).lines ++ [fence])

theorem flatMap_lines_fenced (ms : Members) :
    (fenced (.obj ms)).flatMap Text.lines = fencedLines (.obj ms) := by
  have block : jsonBlock (.obj ms) = pretty (.obj ms) := jsonBlock_eq (by simp)
  rw [fenced, block, List.flatMap_cons, List.flatMap_cons, List.flatMap_singleton]
  rfl

theorem holdsBlock {document : Text} {front : List Text} {v : Json} (proper : v.isProper = true)
    (starts : front ++ fencedLines v <+: document.lines) : HoldsBlock document front v := by
  obtain ⟨back, cut⟩ := starts
  refine ⟨(pretty v).lines ++ fence :: back, ?_, block?_pretty v back,
    readsAs_print isReadable_indented proper⟩
  rw [← cut, fencedLines]
  simp

/-! ## The lines of a guide -/

/-- The lines of a guide up to the registration. -/
def usageLines (s : Spell) : List Text := (guideHead s).flatMap Text.lines

/-- The lines between two blocks: a heading with empty ones around it. -/
def headingLines (heading : Text) : List Text := ["", "## " ++ heading, ""]

/-- The lines of a guide up to the schema of the input, which has a heading of its own. -/
def inputLines (s : Spell) : List Text :=
  usageLines s ++ fencedLines (registration s) ++ headingLines "Input Schema"

/-- The lines of a guide up to the schema of the output, which has a heading of its own. -/
def outputLines (s : Spell) : List Text :=
  inputLines s ++ fencedLines (.obj s.inputSchema) ++ headingLines "Output Schema"

theorem flatMap_lines_schemaSection {heading : Text} (flat : .scalar '\n' ∉ heading) (ms : Members) :
    (schemaSection heading (.obj ms)).flatMap Text.lines
      = headingLines heading ++ fencedLines (.obj ms) := by
  have line : ("## " ++ heading : Text).lines = ["## " ++ heading] :=
    Text.splitOn_plain (by simp [flat, Text.ofString])
  rw [schemaSection, List.flatMap_cons, List.flatMap_cons, List.flatMap_cons, line,
    flatMap_lines_fenced]
  rfl

theorem lines_guideText (s : Spell) : (guideText s).lines =
    outputLines s ++ fencedLines (.obj s.outputSchema) ++ (guideTail s).flatMap Text.lines := by
  have lines := Text.lines_join ("# " ++ s.name) (guideLines s).tail
  have whole : ("# " ++ s.name) :: (guideLines s).tail = guideLines s := rfl
  have registered : (fenced (registration s)).flatMap Text.lines = fencedLines (registration s) :=
    flatMap_lines_fenced _
  rw [whole, guideLines, List.flatMap_append, List.flatMap_append, List.flatMap_append,
    List.flatMap_append, registered, flatMap_lines_schemaSection (by decide),
    flatMap_lines_schemaSection (by decide)] at lines
  rw [guideText, guideLines, lines]
  simp only [outputLines, inputLines, usageLines, List.append_assoc]

theorem fitsReader_registration (s : Spell) {room : Nat} (deep : 4 ≤ room) :
    (registration s).FitsReader room := ⟨deep, rfl⟩

theorem isProper_registration (s : Spell) : (registration s).isProper = true := by
  have apart : Text.ofString "command" ≠ "args" := by decide
  simp [registration, isProper, isProperMembers, isProperItems, Entries.keys, apart]

/-- A spell with fences on lines of their own in its description and between the quotes of a schema. -/
def hedged : Spell :=
  { Spell.sample with
    description := "\n## Input Schema\n\n```json\n" ++ List.replicate 80 (CodePoint.scalar 'a')
    inputSchema := [("\n```", .arr [.str "\n  ```json\n```", .float .nan])] }

theorem isChecked_hedged : hedged.IsChecked :=
  ⟨.obj [("id", .str hedged.id), ("name", .str hedged.name),
      ("description", .str hedged.description), ("inputSchema", .obj hedged.inputSchema),
      ("outputSchema", .obj hedged.outputSchema), ("action", Spell.wireAction hedged.action)],
    by decide +kernel, rfl⟩

end Grimoire.Bundle
