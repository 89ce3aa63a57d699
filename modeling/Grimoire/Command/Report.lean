import Grimoire.Act
import Grimoire.Book.Basic
import Grimoire.Console.Table
import Grimoire.Spell.Warning

/-!
# What commands report

Commands print lines with marks, tables and plain texts. A failure that is expected is reported and ends
the command with code 1.

Main statement: `Command.orReport_of_ok` (an act that does not fail is gone on with).
-/

namespace Grimoire.Command

variable {α : Type}

/-- Prints a text with a line end. -/
def printLine (t : Text) : Act Unit := do
  Act.print t
  Act.print "\n"

/-- Prints lines, each with a line end, unless the marks in them are at fault. -/
def printLines : Except MarkupFault (List Text) → Act Unit
  | .error fault => throw (.markup fault)
  | .ok lines => Act.print (lines.flatMap (· ++ "\n"))

/-- Prints a text with marks, wrapped to the console. -/
def say (t : Text) : Act Unit := do
  printLines ((← Act.env).marks.lines Console.lineWidth .fold .plain false t)

/-- Prints a table. -/
def printTable (table : Table) : Act Unit := do
  printLines (table.lines (← Act.env).marks)

/-- A column whose cells start on the left. -/
def column (header : Text) : Column := ⟨header, .plain, false⟩

/-- A column of names, which are not broken. -/
def nameColumn : Column := ⟨"Name", .plain, true⟩

/-- A column of numbers. -/
def numberColumn (header : Text) : Column := ⟨header, .right, false⟩

/-- The table of the problems of a candidate. -/
def problemTable (complaints : List Complaint) : Table :=
  ⟨"Spell validation failed", [column "Field", column "Problem", column "Code"],
    complaints.map fun c => [if c.path.isEmpty then "<root>" else c.path, c.message, c.code]⟩

/-- Reports a failure. -/
def report (failure : Failure) : Act Unit :=
  match failure.problems with
  | [] => say ("[red]Error:[/red] " ++ failure.message)
  | problems => printTable (problemTable (problems.map Problem.complaint))

/-- Runs an act and goes on with its result. A failure that is expected is reported instead. -/
def orReport (act : Act α) (next : α → Act Nat) : Act Nat := do
  match ← Act.attempt act with
  | .ok a => next a
  | .error failure =>
    if failure.isReported then
      report failure
      return 1
    else throw failure

/-- Prints the warnings about a spell. -/
def sayWarnings (s : Spell) : Act Unit := do
  (← Act.ofExcept s.warnings).forM fun warning =>
    say ("[yellow]warning:[/yellow] " ++ warning.message)

/-- The table of the spells of a book. -/
def bookTable (p : Path) (book : Book) : Table :=
  ⟨"Spellbook (" ++ p.text ++ ")", [nameColumn, column "Action", column "Id", column "Description"],
    book.byName.map fun s => [s.name, s.action.kind, s.id, s.description.take 60 ++ "…"]⟩

/-- The line about elements that were passed over. -/
def skippedLine (count : Nat) : Text :=
  "[yellow]Skipped " ++ Text.ofNat count ++ " invalid "
    ++ (if count = 1 then "entry" else "entries") ++ "[/yellow]"

theorem orReport_of_ok {act : Act α} {next : α → Act Nat} {env : Env} {s s' : State} {a : α}
    (h : act.run env s = (.ok a, s')) : (orReport act next).run env s = (next a).run env s' := by
  rw [orReport, Act.run_bind, Act.run_attempt, h]

end Grimoire.Command
