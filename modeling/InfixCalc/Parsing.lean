import InfixCalc.Postfix.Building
import InfixCalc.Postfix.Conversion
import InfixCalc.Token.Scan
/-!
# Parsing

From a source text to a tree, by way of lexemes and a postfix word list. The first stage that fails
gives the error.
-/

namespace InfixCalc

/-- The postfix word list of a source text. -/
def Postfix.ofSource (source : String) : Except ParseError (List String) :=
  (Lexeme.tokenize source).bind Postfix.ofLexemes

/-- The tree of a source text. -/
def Expr.parse (source : String) : Except ParseError Expr :=
  (Postfix.ofSource source).bind Postfix.toTree

end InfixCalc
