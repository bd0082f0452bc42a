/-!
# Operators

The five binary operators, their symbols and how strongly they bind.
-/

namespace InfixCalc

inductive Operator where
  | add
  | subtract
  | multiply
  | divide
  | power
deriving DecidableEq, Repr

namespace Operator

/-- All operators, in their order of declaration. -/
def all : List Operator := [add, subtract, multiply, divide, power]

def symbol : Operator → Char
  | add => '+'
  | subtract => '-'
  | multiply => '*'
  | divide => '/'
  | power => '^'

def ofSymbol? : Char → Option Operator
  | '+' => some add
  | '-' => some subtract
  | '*' => some multiply
  | '/' => some divide
  | '^' => some power
  | _ => none

theorem symbol_of_ofSymbol? {c : Char} {op : Operator} (h : ofSymbol? c = some op) :
    op.symbol = c := by
  unfold ofSymbol? at h
  split at h <;> cases h <;> rfl

/-- The symbol as a text. -/
def text (op : Operator) : String := op.symbol.toString

instance : ToString Operator := ⟨text⟩

/-- The operator of a text that is just its symbol. -/
def ofText? (text : String) : Option Operator :=
  match text.toList with
  | [c] => ofSymbol? c
  | _ => none

/-- The name of the operator in structured output. -/
def name : Operator → String
  | add => "Add"
  | subtract => "Subtract"
  | multiply => "Multiply"
  | divide => "Divide"
  | power => "Power"

/-- The strength of binding: sums bind least, powers most. -/
def precedence : Operator → Nat
  | add | subtract => 1
  | multiply | divide => 2
  | power => 3

/-- Only the power groups to the right. -/
def isRightAssociative : Operator → Bool
  | power => true
  | _ => false

/-- The operator `top`, met first, applies before the operator `incoming` to its right. -/
def appliesBefore (top incoming : Operator) : Bool :=
  if incoming.isRightAssociative then incoming.precedence < top.precedence
  else incoming.precedence ≤ top.precedence

end Operator

end InfixCalc
