import Grimoire.Proofs.Act
import Grimoire.Proofs.Json.ReadBack
import Grimoire.Source.Document

/-!
# What is read from a source

Reading a source is passive (`Source.isPassive_read`). Its text follows from the input, the web and the
file (`Source.fst_readText`), and what is read never has a key twice (`Source.isProper_of_read`).
-/

namespace Grimoire.Source

open Act

theorem isPassive_readText (source : Text) : IsPassive (readText source) := by
  unfold readText
  split
  · exact IsPassive.takeInput.bind fun _ => .ofExcept _
  · split
    · exact .throw _
    · refine IsPassive.readEnv.bind fun env => ?_
      split
      · exact .ofExcept _
      · exact IsPassive.state.bind fun _ => .ofExcept _

theorem isPassive_read (source : Text) : IsPassive (read source) :=
  (isPassive_readText source).bind fun _ => IsPassive.readEnv.bind fun _ => .ofExcept _

/-- The text of a source follows from the input, the web and the file. -/
theorem fst_readText (source : Text) (env : Env) (s : State) :
    ((readText source).run env s).1 = if source = "-" then localText s.input
      else match Locator.isWeb source with
        | .error fault => .error (.locator fault)
        | .ok true => fetch env.web env.charsets env.followsMoves source
        | .ok false => fileText source (s.disk.contentAt env.here (Path.ofText source)) := by
  unfold readText
  split
  · exact congrArg Prod.fst (run_ofExcept (s := { s with input := [] }) (localText s.input))
  · cases Locator.isWeb source with
    | error fault => rfl
    | ok isWeb =>
      rw [run_bind, run_env]
      cases isWeb with
      | true => exact congrArg Prod.fst (run_ofExcept _)
      | false => exact congrArg Prod.fst (run_ofExcept _)

/-- No object in a candidate has a key twice. -/
theorem isProper_of_read {source : Text} {env : Env} {s t : State} {candidate : Json}
    (h : (read source).run env s = (.ok candidate, t)) : candidate.isProper = true := by
  obtain ⟨text, u, -, h⟩ := run_bind_eq_ok.mp h
  have parsed := (run_ofExcept _).symm.trans h
  have read : parse env.rooms.source source text = .ok candidate := (Prod.mk.inj parsed).1
  unfold parse at read
  split at read
  · next value =>
    exact Json.isProper_of_read (value.trans (congrArg Except.ok (Except.ok.inj read)))
  · exact absurd read (by simp)
  · exact absurd read (by simp)

end Grimoire.Source
