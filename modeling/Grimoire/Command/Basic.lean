import Grimoire.Text.CodePoint

/-!
# Commands

A command is read from the words of a command line: its name, its arguments, and options, which may
stand anywhere after the name. An option that is given twice has its last value.

Main statements: `Command.ofWords?_nil` and `Command.sort_plain` (words without a dash in front are
arguments).
-/

namespace Grimoire

/-- A command. Where a book is meant, `place` is the file that was asked for. -/
inductive Command where
  | validate (source : Text)
  | generate (source out : Text) (alsoArchive force : Bool)
  | digest (source : Text) (expected : Option Text)
  | add (source : Text) (force : Bool) (place : Option Text)
  | list (place : Option Text)
  | display (key : Text) (place : Option Text)
  | remove (key : Text) (place : Option Text)
  | clear (isSure : Bool) (place : Option Text)
  | examples
  | new (model : Text) (out : Option Text)
  | serve (place : Option Text)
  deriving DecidableEq

namespace Command

/-- The words of a command line, sorted. -/
structure Words where
  plain : List Text
  options : List (Text × Text)
  flags : List Text
  deriving DecidableEq

/-- Whether a word is an option or a flag. -/
def isOption (word : Text) : Bool := word.head? = some (.scalar '-') && 1 < word.length

/-- Sorts words, given the names of the options that have a value and of those that have none. -/
def sort (withValue without : List Text) : List Text → Option Words
  | [] => some ⟨[], [], []⟩
  | word :: rest =>
    let name := word.takeWhile (· ≠ .scalar '=')
    if word = "--" then some ⟨rest, [], []⟩
    else if !isOption word then
      (sort withValue without rest).map fun ws => { ws with plain := word :: ws.plain }
    else if without.contains word then
      (sort withValue without rest).map fun ws => { ws with flags := word :: ws.flags }
    else if withValue.contains name ∧ name ≠ word then
      (sort withValue without rest).map fun ws =>
        { ws with options := (name, word.drop (name.length + 1)) :: ws.options }
    else
      match rest with
      | [] => none
      | value :: rest =>
        if withValue.contains word then
          (sort withValue without rest).map fun ws =>
            { ws with options := (word, value) :: ws.options }
        else none

/-- The last value of an option. -/
def Words.last? (ws : Words) (name : Text) : Option Text :=
  (ws.options.reverse.find? fun option => option.1 = name).map Prod.snd

/-- Whether a flag is set. -/
def Words.has (ws : Words) (name : Text) : Bool := ws.flags.contains name

/-- The option for the file of a book. -/
def placeOption : Text := "--spells-file"

/-- The options of each command by its name: those with a value and those without. -/
def optionNames : List (Text × List Text × List Text) := [
  ("validate", [], []),
  ("generate", ["--out"], ["--zip", "--force"]),
  ("digest", ["--expect"], []),
  ("add", [placeOption], ["--force"]),
  ("list", [placeOption], []),
  ("show", [placeOption], []),
  ("remove", [placeOption], []),
  ("clear", [placeOption], ["--yes"]),
  ("examples", [], []),
  ("new", ["--out"], []),
  ("serve", [placeOption], [])]

/-- The folder for bundles unless another one is asked for. -/
def defaultFolder : Text := "./dist"

/-- The command with a name and one argument. -/
def withArgument (name argument : Text) (ws : Words) : Option Command :=
  let place := ws.last? placeOption
  if name = "validate" then some (.validate argument)
  else if name = "generate" then
    some (.generate argument ((ws.last? "--out").getD defaultFolder) (ws.has "--zip")
      (ws.has "--force"))
  else if name = "digest" then some (.digest argument (ws.last? "--expect"))
  else if name = "add" then some (.add argument (ws.has "--force") place)
  else if name = "show" then some (.display argument place)
  else if name = "remove" then some (.remove argument place)
  else if name = "new" then some (.new argument (ws.last? "--out"))
  else none

/-- The command with a name and no argument. -/
def withoutArgument (name : Text) (ws : Words) : Option Command :=
  let place := ws.last? placeOption
  if name = "list" then some (.list place)
  else if name = "clear" then some (.clear (ws.has "--yes") place)
  else if name = "examples" then some .examples
  else if name = "serve" then some (.serve place)
  else none

/-- The command that words mean. -/
def ofWords? : List Text → Option Command
  | [] => none
  | name :: rest => do
    let (_, withValue, without) ← optionNames.find? fun options => options.1 = name
    let ws ← sort withValue without rest
    match ws.plain with
    | [] => withoutArgument name ws
    | [argument] => withArgument name argument ws
    | _ => none

theorem ofWords?_nil : ofWords? [] = none := rfl

theorem sort_plain (withValue without : List Text) {words : List Text}
    (h : ∀ word ∈ words, isOption word = false) :
    sort withValue without words = some ⟨words, [], []⟩ := by
  induction words with
  | nil => rfl
  | cons word words ih =>
    have hword := h word (List.mem_cons_self ..)
    have hrest := ih fun w hw => h w (List.mem_cons_of_mem _ hw)
    have hdash : ¬word = "--" := by
      rintro rfl
      exact absurd hword (by decide)
    unfold sort
    simp [hdash, hword, hrest]

end Command

end Grimoire
