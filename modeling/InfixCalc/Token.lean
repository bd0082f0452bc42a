import InfixCalc.Operator
import InfixCalc.Span
/-!
# Tokens

The words of an expression, and the lexemes: tokens at their place in the source.
-/

namespace InfixCalc

inductive Token where
  /-- A run of digits and points, kept as it is spelled. -/
  | number (text : String)
  | operator (op : Operator)
  | opening
  | closing
  /-- A character that begins no other token. -/
  | unknown (char : Char)
deriving DecidableEq, Repr

namespace Token

def text : Token → String
  | number text => text
  | operator op => op.text
  | opening => "("
  | closing => ")"
  | unknown _ => "<error>"

instance : ToString Token := ⟨text⟩

end Token

/-- A token and the span of its source text. -/
structure Lexeme where
  token : Token
  span : Span
deriving DecidableEq, Repr

end InfixCalc
