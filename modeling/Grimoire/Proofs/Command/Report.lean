import Grimoire.Command.Run
import Grimoire.Proofs.Act

/-!
# Reports are passive

What a command prints, asks and reports neither changes the disk nor draws identifiers. So a command
leaves the disk that the act leaves which it reports on (`Command.sameDisk_orReport`).
-/

namespace Grimoire.Command

open Act

variable {α β : Type}

theorem isPassive_printLines (lines : Except MarkupFault (List Text)) :
    IsPassive (printLines lines) := by
  cases lines with
  | error fault => exact .throw _
  | ok lines => exact .print _

theorem isPassive_say (t : Text) : IsPassive (say t) :=
  IsPassive.readEnv.bind fun _ => isPassive_printLines _

theorem isPassive_printTable (table : Table) : IsPassive (printTable table) :=
  IsPassive.readEnv.bind fun _ => isPassive_printLines _

theorem isPassive_report (failure : Failure) : IsPassive (report failure) := by
  unfold report
  split
  · exact isPassive_say _
  · exact isPassive_printTable _

theorem isPassive_sayWarnings (s : Spell) : IsPassive (sayWarnings s) :=
  (IsPassive.ofExcept _).bind fun _ => .forM fun _ => isPassive_say _

theorem isPassive_confirm (question : Text) (lines : List Text) :
    IsPassive (confirm question lines) := by
  induction lines with
  | nil => exact (IsPassive.print _).bind fun _ => .pure _
  | cons line lines ih =>
    refine (IsPassive.print _).bind fun _ => ?_
    dsimp only
    split
    · exact .pure _
    · split
      · exact .pure _
      · exact (IsPassive.print _).bind fun _ => ih

theorem isPassive_inputLines : IsPassive inputLines :=
  IsPassive.takeInput.bind fun _ => (IsPassive.ofExcept _).bind fun _ => .pure _

theorem sameDisk_orReport {act : Act α} {next : α → Act Nat} (other : α → Act β)
    (rest : ∀ a, SameDisk (next a) (other a)) : SameDisk (orReport act next) (act >>= other) := by
  intro env s
  rw [run_bind]
  rcases outcome : act.run env s with ⟨failure | a, t⟩
  · rw [orReport, run_bind, run_attempt, outcome]
    dsimp only
    split
    · exact ((isPassive_report failure).bind (fun _ => .pure _) env t).1
    · rfl
  · rw [orReport_of_ok outcome]
    exact rest a env t

end Grimoire.Command
