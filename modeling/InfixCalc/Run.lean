import InfixCalc.Expr.Evaluation
import InfixCalc.Expr.Rendering
import InfixCalc.Parsing
/-!
# Runs

A run takes a source text through all stages: scanning, conversion, building and evaluation. Each
stage that completes is logged, and a verbose run also announces each stage before it starts.
-/

namespace InfixCalc

/-! ## Logged stages -/

def Lexeme.tokenizeLogged (source : String) : Logged (Except ParseError (List Lexeme)) :=
  .ofSuccess (Lexeme.tokenize source) fun lexemes =>
    "tokenized " ++ Text.quoted source ++ " into " ++ toString lexemes.length ++ " tokens: [" ++
      ", ".intercalate (lexemes.map (·.token.text)) ++ "]"

def Postfix.ofLexemesLogged (lexemes : List Lexeme) : Logged (Except ParseError (List String)) :=
  .ofSuccess (Postfix.ofLexemes lexemes) fun words => "postfix: " ++ " ".intercalate words

def Postfix.toTreeLogged (words : List String) : Logged (Except ParseError Expr) :=
  .ofSuccess (Postfix.toTree words) fun tree =>
    "built tree with " ++ toString tree.size ++ " nodes: " ++ tree.infixText

/-- Parsing with a record for each stage that completes. -/
def Expr.parseLogged (source : String) : Logged (Except ParseError Expr) :=
  ((Lexeme.tokenizeLogged source).andThen Postfix.ofLexemesLogged).andThen Postfix.toTreeLogged

/-! ## Reports -/

/-- What a run has to say about an expression. The renderings are there even if the tree has no
value. -/
structure Report where
  expression : String
  prefixText : String
  postfixText : String
  infixText : String
  outline : String
  result : Except EvalError Number

namespace Report

/-- The report on a tree with a given result. -/
def ofResult (expression : String) (tree : Expr) (result : Except EvalError Number) : Report where
  expression := expression
  prefixText := tree.prefixText
  postfixText := tree.postfixText
  infixText := tree.infixText
  outline := tree.outline ""
  result := result

def ofTree (expression : String) (tree : Expr) : Report :=
  ofResult expression tree tree.evaluate

def ofTreeLogged (expression : String) (tree : Expr) : Logged Report :=
  tree.evaluateLogged.map (ofResult expression tree)

end Report

/-- Takes a source text through all stages. -/
def run (verbose : Bool) (source : String) : Logged (Except ParseError Report) :=
  Logged.andThen
    (Logged.announce verbose ("step: tokenizing " ++ Text.quoted source)
      (Lexeme.tokenizeLogged source)) fun lexemes =>
  Logged.andThen
    (Logged.announce verbose ("step: converting " ++ toString lexemes.length ++ " tokens to postfix")
      (Postfix.ofLexemesLogged lexemes)) fun words =>
  Logged.andThen
    (Logged.announce verbose ("step: building tree from `" ++ " ".intercalate words ++ "`")
      (Postfix.toTreeLogged words)) fun tree =>
  Logged.announce verbose ("step: evaluating " ++ tree.infixText)
    ((Report.ofTreeLogged source tree).map .ok)

end InfixCalc
