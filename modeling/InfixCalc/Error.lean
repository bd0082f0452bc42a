import InfixCalc.Span
import InfixCalc.Text.Quoted
/-!
# Errors

What can go wrong with an expression, each cause with its message. Errors found in the source text
know their span; errors found in a postfix word list have none.
-/

namespace InfixCalc

/-- Why a source text or a postfix word list is no expression. -/
inductive ParseError where
  | strangeCharacter (char : Char) (span : Span)
  | invalidToken (text : String) (span : Span)
  /-- A parenthesis without its partner. -/
  | unmatchedParenthesis (span : Span)
  | missingOperand
  /-- A word of a postfix list that is neither a number nor an operator. -/
  | unknownWord (word : String)
  /-- Not exactly one tree is left. -/
  | incomplete
  | tooDeep (limit : Nat)
deriving DecidableEq, Repr

namespace ParseError

/-- What is wrong, in a few words. -/
def reason : ParseError → String
  | strangeCharacter char _ => "invalid character: " ++ Text.quotedChar char
  | invalidToken text _ => "invalid token " ++ text
  | unmatchedParenthesis _ => "mismatched parentheses"
  | missingOperand => "insufficient operands"
  | unknownWord word => "invalid token in AST build: " ++ word
  | incomplete => "malformed expression"
  | tooDeep limit => "nesting deeper than " ++ toString limit ++ " levels"

def message (error : ParseError) : String := "Invalid expression: " ++ error.reason

/-- Where in the source the error lies. -/
def span? : ParseError → Option Span
  | strangeCharacter _ span | invalidToken _ span | unmatchedParenthesis span => some span
  | missingOperand | unknownWord _ | incomplete | tooDeep _ => none

/-- A remark on the offending text. -/
def remark : ParseError → String
  | strangeCharacter .. => "this character is not allowed here"
  | invalidToken .. => "not a valid number"
  | unmatchedParenthesis _ => "no matching parenthesis"
  | missingOperand => "operator is missing an operand"
  | unknownWord _ => "unexpected token while building the tree"
  | incomplete => "expression is incomplete"
  | tooDeep _ => "split the expression into smaller parts"

end ParseError

/-- Why a tree has no value. -/
inductive EvalError where
  | divisionByZero
deriving DecidableEq, Repr

def EvalError.message : EvalError → String
  | divisionByZero => "Division by zero"

/-- Anything that keeps an input from having a value. -/
inductive Failure where
  | parse (error : ParseError)
  | eval (error : EvalError)
  /-- The input could not be read. -/
  | input (detail : String)
deriving DecidableEq, Repr

namespace Failure

def message : Failure → String
  | parse error => error.message
  | eval error => error.message
  | input detail => "I/O error: " ++ detail

def span? : Failure → Option Span
  | parse error => error.span?
  | eval _ | input _ => none

end Failure

end InfixCalc
