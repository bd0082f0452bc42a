import InfixCalc.Run
import InfixCalc.Text.Blank
import InfixCalc.Text.Lines
/-!
# Batches

A text whose lines are expressions. Each line is taken by itself, and blank lines are passed over
but counted.
-/

namespace InfixCalc

/-- The value of an expression, or whatever keeps it from having one. -/
def Expr.valueOfSource (source : String) : Except Failure Number :=
  match Expr.parse source with
  | .error e => .error (.parse e)
  | .ok tree => match tree.evaluate with
    | .error e => .error (.eval e)
    | .ok v => .ok v

def Expr.valueOfSourceLogged (source : String) : Logged (Except Failure Number) :=
  ((Expr.parseLogged source).map (·.mapError .parse)).andThen fun tree =>
    tree.evaluateLogged.map (·.mapError .eval)

/-- What became of one line of a batch. -/
structure LineOutcome where
  /-- The number of the line, counted from one. -/
  line : Nat
  expression : String
  outcome : Except Failure Number

namespace Batch

/-- The lines of a text that are not blank, with their numbers. -/
def numberedLines (source : String) : List (String × Nat) :=
  ((Text.lines source).zipIdx 1).filter fun (line, _) => !Text.isBlank line

def evaluateLine (entry : String × Nat) : LineOutcome :=
  ⟨entry.2, entry.1, Expr.valueOfSource entry.1⟩

/-- One outcome for each line that is not blank. -/
def evaluate (source : String) : List LineOutcome := (numberedLines source).map evaluateLine

/-- A line that fails is logged with its number. -/
def evaluateLineLogged (entry : String × Nat) : Logged LineOutcome :=
  let x := Expr.valueOfSourceLogged entry.1
  let complaint := match x.value with
    | .error e => [⟨.debug, "line " ++ toString entry.2 ++ ": " ++ e.message⟩]
    | .ok _ => []
  ⟨x.records ++ complaint, ⟨entry.2, entry.1, x.value⟩⟩

def evaluateLogged (source : String) : Logged (List LineOutcome) :=
  .forEach evaluateLineLogged (numberedLines source)

end Batch

end InfixCalc
