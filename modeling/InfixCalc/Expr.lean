import InfixCalc.Number
import InfixCalc.Operator
/-!
# Expression trees

A tree is a number or an operator over two trees.
-/

namespace InfixCalc

inductive Expr where
  | number (value : Number)
  | binary (op : Operator) (left right : Expr)
deriving DecidableEq, Repr

namespace Expr

instance : Inhabited Expr := ⟨number default⟩

/-- The number of nodes. -/
def size : Expr → Nat
  | number _ => 1
  | binary _ left right => 1 + left.size + right.size

/-- The number of levels; a single number has one. -/
def height : Expr → Nat
  | number _ => 1
  | binary _ left right => 1 + max left.height right.height

/-- The same shape and operators, and numerically equal numbers. Unlike equality of trees this
identifies the two zeros and separates not-a-number from itself. -/
def numEq : Expr → Expr → Bool
  | number a, number b => a.numEq b
  | binary op l r, binary op' l' r' => op == op' && l.numEq l' && r.numEq r'
  | _, _ => false

end Expr

end InfixCalc
