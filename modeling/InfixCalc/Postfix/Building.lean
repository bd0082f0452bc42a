import InfixCalc.Error
import InfixCalc.Expr
import InfixCalc.Number.Reading
/-!
# From a postfix word list to a tree

A stack of trees is kept: a number is put on top, an operator takes the two topmost trees as its
operands. Every tree carries its height, and no tree becomes higher than `maxHeight`, which bounds
the recursion of everything that is done with a tree later.
-/

namespace InfixCalc

namespace Postfix

/-- The greatest height of a tree that is built from words. -/
def maxHeight : Nat := 512

/-- A tree and its height. -/
structure Built where
  tree : Expr
  height : Nat
deriving DecidableEq, Repr

/-- Joins the two topmost trees of a stack under an operator. -/
def combine (op : Operator) : List Built → Except ParseError (List Built)
  | right :: left :: rest =>
    let height := 1 + max left.height right.height
    if maxHeight < height then .error (.tooDeep maxHeight)
    else .ok (⟨.binary op left.tree right.tree, height⟩ :: rest)
  | _ => .error .missingOperand

/-- One word. What reads as a number is a number. -/
def push (stack : List Built) (word : String) : Except ParseError (List Built) :=
  match Number.ofText? word with
  | some v => .ok (⟨.number v, 1⟩ :: stack)
  | none => match Operator.ofText? word with
    | some op => combine op stack
    | none => .error (.unknownWord word)

/-- The tree of a postfix word list. In the end there must be exactly one tree. -/
def toTree (words : List String) : Except ParseError Expr :=
  match words.foldlM push [] with
  | .ok [built] => .ok built.tree
  | .ok _ => .error .incomplete
  | .error e => .error e

end Postfix

end InfixCalc
