import InfixCalc.Error
import InfixCalc.Expr
import InfixCalc.Log
import InfixCalc.Number.Arithmetic
import InfixCalc.Number.Text
/-!
# Evaluation

The value of a tree. Operands are evaluated from left to right, and the first division by zero ends
the evaluation.

Main statement: `Expr.value_evaluateLogged`, logging does not change the value.
-/

namespace InfixCalc

/-- One operation. A divisor that is zero, of either sign, has no quotient. -/
def Operator.apply (op : Operator) (a b : Number) : Except EvalError Number :=
  match op with
  | .add => .ok (a + b)
  | .subtract => .ok (a - b)
  | .multiply => .ok (a * b)
  | .divide => if b.isZero then .error .divisionByZero else .ok (a / b)
  | .power => .ok (a ^ b)

namespace Expr

def evaluate : Expr → Except EvalError Number
  | number v => .ok v
  | binary op l r =>
    match l.evaluate with
    | .error e => .error e
    | .ok a => match r.evaluate with
      | .error e => .error e
      | .ok b => op.apply a b

/-! ## The log of an evaluation -/

/-- An operation on two numbers, as it is written in the log. -/
def operationText (op : Operator) (a b : Number) : String :=
  a.text ++ " " ++ op.text ++ " " ++ b.text

/-- One operation and its record. -/
def applyLogged (op : Operator) (a b : Number) : Logged (Except EvalError Number) :=
  match op.apply a b with
  | .ok v => ⟨[⟨.trace, operationText op a b ++ " = " ++ v.text⟩], .ok v⟩
  | .error e =>
    ⟨[⟨.debug, "evaluation failed at `" ++ operationText op a b ++ "`: " ++ e.message⟩], .error e⟩

/-- Evaluation with one record for each operation carried out. -/
def evaluateLogged : Expr → Logged (Except EvalError Number)
  | number v => .pure (.ok v)
  | binary op l r =>
    l.evaluateLogged.andThen fun a => r.evaluateLogged.andThen fun b => applyLogged op a b

theorem value_applyLogged (op : Operator) (a b : Number) :
    (applyLogged op a b).value = op.apply a b := by
  unfold applyLogged
  split <;> rename_i h <;> rw [h]

/-- Logging does not change the value. -/
theorem value_evaluateLogged (t : Expr) : t.evaluateLogged.value = t.evaluate := by
  induction t with
  | number v => rfl
  | binary op l r ihl ihr =>
    simp only [evaluateLogged, evaluate, Logged.andThen, ihl]
    cases l.evaluate with
    | error e => rfl
    | ok a =>
      simp only [ihr]
      cases r.evaluate with
      | error e => rfl
      | ok b => exact value_applyLogged op a b

end Expr

end InfixCalc
