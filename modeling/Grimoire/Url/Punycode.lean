import Grimoire.Url.Address

/-!
# Punycode

A label of a host name may carry other characters in ASCII: the characters of ASCII first, then, as
numbers to base 36 with digits of growing weight, where each of the others goes.

Main statement: `Url.Punycode.delta?_length_lt` (a number takes up some of the label).
-/

namespace Grimoire.Url.Punycode

/-- The value of a digit: letters first, then numerals. -/
def digit? (c : Char) : Option Nat :=
  if 'a' ≤ c ∧ c ≤ 'z' then some (c.toNat - 97)
  else if 'A' ≤ c ∧ c ≤ 'Z' then some (c.toNat - 65)
  else if '0' ≤ c ∧ c ≤ '9' then some (c.toNat - 22)
  else none

/-- The least digit that is not the last one at the place `k`. -/
def threshold (k bias : Nat) : Nat := min (max (k - bias) 1) 26

/-- Reads a number from its digits, the least one first. -/
def delta? (bias k weight value : Nat) : List Char → Option (Nat × List Char)
  | [] => none
  | c :: s => do
    let d ← digit? c
    let value := value + d * weight
    let t := threshold k bias
    if d < t then return (value, s)
    else delta? bias (k + 36) (weight * (36 - t)) value s

theorem delta?_length_lt {bias k weight value n : Nat} {s rest : List Char}
    (h : delta? bias k weight value s = some (n, rest)) : rest.length < s.length := by
  induction s generalizing k weight value with
  | nil => simp [delta?] at h
  | cons c s ih =>
    rw [delta?] at h
    cases hd : digit? c with
    | none => simp [hd] at h
    | some d =>
      simp only [hd, Option.bind_eq_bind, Option.bind_some] at h
      split at h
      · simp only [Option.pure_def, Option.some.injEq, Prod.mk.injEq] at h
        simp [← h.2]
      · have := ih h
        simp only [List.length_cons]
        omega

/-- The offset of the thresholds after a number was read. -/
def adapt (delta count : Nat) (first : Bool) : Nat :=
  let delta := if first then delta / 700 else delta / 2
  shrink (delta + delta / count) 0
where
  shrink (delta k : Nat) : Nat :=
    if 455 < delta then shrink (delta / 35) (k + 36) else k + 36 * delta / (delta + 38)
  termination_by delta
  decreasing_by exact Nat.div_lt_self (by omega) (by omega)

/-- Puts characters into a label, as the numbers say. The next character is not before `n`, nor at `n`
before place `i`. -/
def insertAll (first : Bool) (n i bias : Nat) (done : List Char) (s : List Char) :
    Option (List Char) :=
  match s with
  | [] => some done
  | c :: s =>
    match h : delta? bias 36 1 0 (c :: s) with
    | none => none
    | some (delta, rest) =>
      let count := done.length + 1
      let n := n + (i + delta) / count
      let place := (i + delta) % count
      if n.isValidChar then
        insertAll false n (place + 1) (adapt delta count first)
          (done.insertIdx place (Char.ofNat n)) rest
      else none
termination_by s.length
decreasing_by exact delta?_length_lt h

/-- The label that a text in ASCII stands for. -/
def decode? (s : List Char) : Option (List Char) :=
  let tail := (s.reverse.takeWhile (· ≠ '-')).reverse
  match s.take (s.length - tail.length - 1) with
  | [] => insertAll true 128 0 72 [] s
  | base => insertAll true 128 0 72 base tail

end Grimoire.Url.Punycode
