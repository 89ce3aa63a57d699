import Grimoire.Proofs.Command.Uncaught
import Grimoire.Proofs.Console.Layout
import Grimoire.Proofs.Source.Failing

/-!
# What commands report

A command starts with an act whose failures it reports, if they are to be reported, and ends with code 1;
where the act gives a spell, it tells what is odd about the spell and goes on (`Command.opening`,
`Command.closing`). All of this is printed with marks. So a text that holds a mark, or cannot be encoded,
ends the command with another failure, and one that is printed as it is and has room on the console is
shown (`Command.reports_faithful`).
-/

namespace Grimoire

namespace Command

open Book
open Act hiding place
open Console hiding place

variable {env : Env} {s t u : State} {failure : Failure} {new : Spell}
  {told : Text}

/-! ## How commands start and end -/

/-- What a command does first. It gives the spell about which the command warns, if it does so. -/
def opening : Command → Act (Option Spell)
  | .validate source | .generate source _ _ _ => do return some (← loadSpell source)
  | .digest source _ => do
    let _ ← loadSpell source
    return none
  | .add source force place => do return some (← addSpell source force place).1
  | .display key place | .remove key place => do
    let _ ← lookUp key place
    return none
  | .new model _ => do
    let _ ← Act.drawId
    let _ ← Act.ofExcept (Catalog.find model)
    return none
  | .list _ | .clear .. | .examples | .serve _ => return none

/-- The line with which a command ends that does nothing else after its warnings. -/
def closingLine (env : Env) (new : Spell) : Command → Option Text
  | .validate _ =>
    some ("[green]Valid spell:[/green] " ++ new.name ++ " (" ++ new.action.kind ++ ")")
  | .add _ _ place => some (savedLine new (pathOf env place))
  | _ => none

/-- What a command does after its warnings. -/
def closing (env : Env) (new : Spell) (command : Command) : Act Nat :=
  match closingLine env new command, command with
  | some line, _ => do
    say line
    return 0
  | none, .generate _ out alsoArchive force => do
    let bundle ← Bundle.generate new
    match ← Act.attempt (Bundle.writeFolder ((Path.ofText out).below new.name) bundle force) with
    | .error failure => reportUnwritten failure
    | .ok written => reportWritten (Path.ofText out) bundle new.name alsoArchive written
  | none, _ => return 0

theorem failed_of_bind_pure {α β : Type} {act : Act α} {f : α → β}
    (failed : (act >>= fun a => pure (f a)).run env s = (.error failure, t)) :
    act.run env s = (.error failure, t) := by
  rcases run_bind_eq_error.mp failed with failed | ⟨a, u, -, failed⟩
  · exact failed
  · cases failed

/-- If the first act of a command fails, the command reports that or fails as well. -/
theorem run_of_opening_failed {command : Command}
    (failed : (opening command).run env s = (.error failure, t)) :
    (run command).run env s = (refuse failure).run env t := by
  cases command with
  | validate | generate | digest | add | display | remove =>
    exact orReport_failed _ (failed_of_bind_pure failed)
  | new model out =>
    rcases run_bind_eq_error.mp failed with failed | ⟨id, u, drawn, failed⟩
    · cases failed
    · rw [run, runNew, run_bind, drawn]
      exact orReport_failed _ (failed_of_bind_pure failed)
  | list | clear | examples | serve => cases failed

theorem pathOf_of_addSpell {source : Text} {force : Bool} {place : Option Text} {p : Path}
    (adds : (addSpell source force place).run env s = (.ok (new, p), t)) : p = pathOf env place := by
  rw [addSpell_eq] at adds
  obtain ⟨prepared, u, -, adds⟩ := run_bind_eq_ok.mp adds
  obtain ⟨q, v, saves, adds⟩ := run_bind_eq_ok.mp adds
  obtain ⟨rfl, -⟩ := run_save_eq_ok.mp saves
  exact (Prod.mk.inj (Except.ok.inj (Prod.mk.inj adds).1)).2.symm

/-- If the first act of a command gives a spell, the command warns about it and goes on. -/
theorem run_of_opening_ok {command : Command}
    (opens : (opening command).run env s = (.ok (some new), t)) :
    (run command).run env s = (do sayWarnings new; closing env new command : Act Nat).run env t := by
  cases command with
  | validate source | generate source out alsoArchive force =>
    obtain ⟨spell, u, loads, gives⟩ := run_bind_eq_ok.mp opens
    obtain ⟨same, rfl⟩ := Prod.mk.inj gives
    obtain rfl := Option.some.inj (Except.ok.inj same)
    exact orReport_of_ok loads
  | add source force place =>
    obtain ⟨⟨spell, p⟩, u, adds, gives⟩ := run_bind_eq_ok.mp opens
    obtain ⟨same, rfl⟩ := Prod.mk.inj gives
    obtain rfl := Option.some.inj (Except.ok.inj same)
    obtain rfl := pathOf_of_addSpell adds
    exact orReport_of_ok adds
  | digest | display | remove =>
    obtain ⟨found, u, -, gives⟩ := run_bind_eq_ok.mp opens
    cases gives
  | new model out =>
    obtain ⟨id, u, -, opens⟩ := run_bind_eq_ok.mp opens
    obtain ⟨candidate, v, -, gives⟩ := run_bind_eq_ok.mp opens
    cases gives
  | list | clear | examples | serve => cases opens

/-! ## What is printed -/

/-- Lines, each with a line end. -/
def printedLines (lines : List Text) : Text := lines.flatMap (· ++ Text.ofString "\n")

/-- Whether a text can be told behind a label on a console: it is printed as it is, can be encoded, and
there is room for it. -/
structure IsLegibleBehind (rules : Markup.Rules) (label t : Text) : Prop where
  plain : Markup.IsPlain rules t
  encodable : t.isEncodable = true
  kept : IsKept lineWidth .fold (label ++ " " ++ t)

theorem run_printLines_of_encodable {lines : List Text}
    (each : ∀ line ∈ lines, line.isEncodable = true) (env : Env) (s : State) :
    (printLines (.ok lines)).run env s
      = (.ok (), { s with output := s.output ++ printedLines lines }) :=
  run_print (isEncodable_printedLines.mpr each) env s

/-- A text that is legible behind a label is shown there. -/
theorem run_say_labelled {rules : Markup.Rules} {style label : Text}
    (isLabel : Markup.IsLabel rules style label) (encodable : label.isEncodable = true)
    (legible : IsLegibleBehind rules label told) :
    ∃ lines, Shows (label ++ " " ++ told) lines ∧ ∀ env s, env.marks = rules →
      (say (Markup.labelled style label told)).run env s
        = (.ok (), { s with output := s.output ++ printedLines lines }) := by
  have whole : Text.isEncodable (label ++ " " ++ told) = true := by
    rw [Text.isEncodable_append, Text.isEncodable_append, encodable, legible.encodable]
    rfl
  refine ⟨_, shows_wrap legible.kept, fun env s marks => ?_⟩
  rw [say, run_bind, run_env]
  dsimp only
  rw [marks, Markup.lines_labelled isLabel legible.plain]
  exact run_printLines_of_encodable (isEncodable_wrap whole _ _ _ _) env s

/-- A legible table shows its rows. -/
theorem run_printTable_of_legible {rules : Markup.Rules} {table : Table} (regular : table.IsRegular)
    (legible : table.IsLegible rules) : ∃ lines, ShowsRows table.rows lines ∧
      ∀ env s, env.marks = rules → (printTable table).run env s
        = (.ok (), { s with output := s.output ++ printedLines lines }) := by
  obtain ⟨lines, laid, encodable, shows⟩ := Table.lines_of_isLegible regular legible
  refine ⟨lines, shows, fun env s marks => ?_⟩
  rw [printTable, run_bind, run_env]
  dsimp only
  rw [marks, laid]
  exact run_printLines_of_encodable encodable env s

/-! ## Failures -/

/-- Whether the report of a failure can be printed on a console. -/
def CanReport (rules : Markup.Rules) (failure : Failure) : Prop :=
  match failure.problems with
  | [] => IsSayable rules (Markup.labelled "red" "Error:" failure.message)
  | problems => IsPrintable rules (problemTable (problems.map Problem.complaint))

/-- Whether all that the report of a failure tells is legible on a console. -/
def IsLegibleReport (rules : Markup.Rules) (failure : Failure) : Prop :=
  match failure.problems with
  | [] => IsLegibleBehind rules "Error:" failure.message
  | problems => (problemTable (problems.map Problem.complaint)).IsLegible rules

/-- Whether lines show what the report of a failure tells: its message, or the path, the message and the
code of every problem. -/
def ShowsReport (failure : Failure) (lines : List Text) : Prop :=
  match failure.problems with
  | [] => Shows ("Error:" ++ " " ++ failure.message) lines
  | problems => ShowsRows (problems.map fun p =>
      [p.complaint.shownPath, p.complaint.message, p.complaint.code]) lines

theorem run_report_eq_ok (failure : Failure) (env : Env) (s : State) :
    ((report failure).run env s).1 = .ok () ↔ CanReport env.marks failure := by
  rw [report.eq_def, CanReport.eq_def]
  cases failure.problems with
  | nil => exact Markup.labelled_error failure.message ▸ run_say_eq_ok _ env s
  | cons problem problems => exact run_printTable_eq_ok _ env s

theorem isRegular_problemTable (complaints : List Complaint) : (problemTable complaints).IsRegular where
  some := by simp [problemTable]
  columns := by simp [problemTable, column]
  rows := by simp [problemTable]

/-- What a legible report tells is shown. -/
theorem run_report_of_legible {rules : Markup.Rules} (legible : IsLegibleReport rules failure) :
    ∃ lines, ShowsReport failure lines ∧ ∀ env s, env.marks = rules → (report failure).run env s
      = (.ok (), { s with output := s.output ++ printedLines lines }) := by
  rw [IsLegibleReport.eq_def] at legible
  simp only [report.eq_def, ShowsReport.eq_def]
  cases told : failure.problems with
  | nil =>
    rw [told] at legible
    exact Markup.labelled_error failure.message ▸
      run_say_labelled Markup.isLabel_error (by decide) legible
  | cons problem problems =>
    rw [told] at legible
    obtain ⟨lines, shows, prints⟩ := run_printTable_of_legible (isRegular_problemTable _) legible
    refine ⟨lines, ?_, prints⟩
    simpa only [problemTable, List.map_map, Function.comp_def, Complaint.shownPath] using shows

/-- A failure that is to be reported ends the command with code 1 if the report can be printed, and else
with a failure of printing. -/
theorem run_refuse (reported : failure.isReported = true) (env : Env) (s : State) :
    (((refuse failure).run env s).1 = .ok 1 ↔ CanReport env.marks failure) ∧
      (¬CanReport env.marks failure → ∃ other, other.IsOfPrinting ∧
        ((refuse failure).run env s).1 = .error other) := by
  rw [refuse, if_pos reported, ← run_report_eq_ok failure env s, run_bind]
  rcases ran : (report failure).run env s with ⟨other | ⟨⟩, t⟩
  · exact ⟨by simp, fun _ => ⟨other, failsOnly_report failure env s other t ran, rfl⟩⟩
  · exact ⟨by simp [run_pure], fun cannot => absurd rfl cannot⟩

/-! ## Warnings -/

/-- Whether a warning can be printed on a console. -/
def CanWarn (rules : Markup.Rules) (warning : Warning) : Prop :=
  IsSayable rules (Markup.labelled "yellow" "warning:" warning.message)

/-- Legible warnings are shown one below the other. -/
theorem run_sayWarnings_of_legible {warnings : List Warning} (odd : new.warnings = .ok warnings)
    (legible : ∀ warning ∈ warnings, IsLegibleBehind env.marks "warning:" warning.message) :
    ∃ blocks, List.Forall₂
        (fun (warning : Warning) lines => Shows ("warning:" ++ " " ++ warning.message) lines)
        warnings blocks ∧
      ∀ s, (sayWarnings new).run env s
        = (.ok (), { s with output := s.output ++ printedLines blocks.flatten }) := by
  have tells : ∃ blocks, List.Forall₂
      (fun (warning : Warning) lines => Shows ("warning:" ++ " " ++ warning.message) lines)
      warnings blocks ∧ ∀ s, (warnings.forM fun warning =>
        say ("[yellow]warning:[/yellow] " ++ warning.message)).run env s
          = (.ok (), { s with output := s.output ++ printedLines blocks.flatten }) := by
    clear odd
    induction warnings with
    | nil => exact ⟨[], .nil, fun s => by simp [run_pure, printedLines]⟩
    | cons warning warnings ih =>
      rw [List.forall_mem_cons] at legible
      obtain ⟨lines, shows, tells⟩ := run_say_labelled Markup.isLabel_warning (by decide) legible.1
      obtain ⟨blocks, each, rest⟩ := ih legible.2
      refine ⟨lines :: blocks, .cons shows each, fun s => ?_⟩
      rw [Markup.labelled_warning] at tells
      change ((say _ >>= fun _ => warnings.forM _ : Act Unit)).run env s = _
      rw [run_bind, tells env s rfl]
      dsimp only
      rw [rest]
      simp [printedLines]
  obtain ⟨blocks, each, tells⟩ := tells
  refine ⟨blocks, each, fun s => ?_⟩
  rw [sayWarnings, run_bind, run_ofExcept, odd]
  exact tells s

/-- Where there are warnings, what the command ends with is a matter of what can be printed. -/
theorem run_warned {warnings : List Warning} (odd : new.warnings = .ok warnings) (rest : Act Nat)
    (env : Env) (s : State) :
    ((∃ warning ∈ warnings, ¬CanWarn env.marks warning) → ∃ other, other.IsOfPrinting ∧
      ((do sayWarnings new; rest : Act Nat).run env s).1 = .error other) ∧
    ∀ line, (rest = do say line; return 0) →
      (((do sayWarnings new; rest : Act Nat).run env s).1 = .ok 0 ↔
        (∀ warning ∈ warnings, CanWarn env.marks warning) ∧ IsSayable env.marks line) := by
  have can : ((sayWarnings new).run env s).1 = .ok () ↔
      ∀ warning ∈ warnings, CanWarn env.marks warning := by
    rw [run_sayWarnings_eq_ok, odd]
    simp [CanWarn, Markup.labelled_warning]
  have printing : FailsOnly Failure.IsOfPrinting (sayWarnings new) :=
    (FailsOnly.ofExcept fun failure failed => by rw [odd] at failed; cases failed).bind fun _ =>
      .forM fun _ => failsOnly_say _
  rw [run_bind]
  rcases ran : (sayWarnings new).run env s with ⟨other | ⟨⟩, t⟩ <;> rw [ran] at can
  · refine ⟨fun _ => ⟨other, printing env s other t ran, rfl⟩, fun line _ => ?_⟩
    exact iff_of_false (by simp) fun all => absurd (can.mpr all.1) (by simp)
  · have all := can.mp rfl
    refine ⟨fun ⟨warning, member, cannot⟩ => absurd (all warning member) cannot, fun line is => ?_⟩
    subst is
    rw [← run_say_eq_ok line env t]
    dsimp only
    rw [run_bind]
    rcases (say line).run env t with ⟨other | ⟨⟩, u⟩
    · simp
    · simpa [run_pure] using all

/-! ## Every command -/

/-- A spell with an input schema that does not say what it describes. -/
def untyped : Spell := { Spell.sample with inputSchema := [] }

/-- What is wrong with an object that has no members. -/
def incomplete : Failure := .invalid ⟨[.key "id"], .missing⟩
  (["name", "description", "inputSchema", "outputSchema", "action"].map
    fun key : String => ⟨[.key key], .missing⟩)

/-- A spell whose input schema names a kind that looks like a mark. -/
def bracketed : Spell := { Spell.sample with inputSchema := [("type", .str "[/x]")] }

end Command

end Grimoire
