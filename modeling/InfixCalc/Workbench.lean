import InfixCalc.Expr.Evaluation
import InfixCalc.Expr.Json
import InfixCalc.Expr.Rendering
import InfixCalc.Parsing
import InfixCalc.Text.Blank
/-!
# A workbench of trees

A stack of trees and the steps that work on it: making trees, taking them apart, comparing and writing
them. A step for which there are too few trees changes nothing.
-/

namespace InfixCalc

namespace Workbench

inductive Side where
  | left
  | right
deriving DecidableEq, Repr

inductive Step where
  | number (value : Number)
  /-- Puts the operator of a symbol over the two topmost trees. -/
  | combine (symbol : String)
  | parse (source : String)
  | build (words : List String)
  | readJson (text : String)
  | duplicate
  | drop
  | swap
  /-- Puts a copy of a child of the topmost tree on top. -/
  | child (side : Side)
  | kind
  | equal
  | describe
  | evaluate
  | outline (indent : String)
  | indentedJson
  /-- Builds a tree from the words of the postfix text of the topmost one. -/
  | rebuild
  /-- Parses the infix text of the topmost tree. -/
  | reparse
  | unknown (name : String)
deriving DecidableEq, Repr

/-- All there is to say about a tree. -/
structure Description where
  prefixText : String
  postfixText : String
  infixText : String
  size : Nat
  height : Nat
  json : String
  result : Except EvalError Number

def Description.ofTree (tree : Expr) : Description where
  prefixText := tree.prefixText
  postfixText := tree.postfixText
  infixText := tree.infixText
  size := tree.size
  height := tree.height
  json := tree.toJson.compact
  result := tree.evaluate

/-- What a step answers. -/
inductive Answer where
  | nothing
  | isLeaf
  | truth (value : Bool)
  | number (value : Number)
  | operator (op : Operator)
  | text (text : String)
  | value (result : Except EvalError Number)
  | description (description : Description)
  | parseError (error : ParseError)
  | notJson
  | underflow
  | unknownSymbol (symbol : String)
  | unknownStep (name : String)

/-- Pushes a tree that has been made, or tells why there is none. -/
def pushTree (stack : List Expr) : Except ParseError Expr → Answer × List Expr
  | .ok tree => (.nothing, tree :: stack)
  | .error e => (.parseError e, stack)

/-- An answer about the topmost tree. -/
def ask (stack : List Expr) (answer : Expr → Answer) : Answer × List Expr :=
  match stack with
  | tree :: _ => (answer tree, stack)
  | [] => (.underflow, stack)

/-- The maximal runs of characters that are not white space. -/
def wordsOf (text : String) : List String :=
  ((text.toList.splitOnP Text.isWhiteSpace).filter (· ≠ [])).map String.ofList

def symbolOperator? (symbol : String) : Option Operator :=
  symbol.toList.head?.bind Operator.ofSymbol?

/-- The answer to a step and the stack behind it. -/
def step (stack : List Expr) : Step → Answer × List Expr
  | .number v => (.nothing, .number v :: stack)
  | .combine symbol => match symbolOperator? symbol, stack with
    | none, _ => (.unknownSymbol symbol, stack)
    | some op, right :: left :: rest => (.nothing, .binary op left right :: rest)
    | some _, _ => (.underflow, stack)
  | .parse source => pushTree stack (Expr.parse source)
  | .build words => pushTree stack (Postfix.toTree words)
  | .readJson text => match Expr.ofJsonText? text with
    | some tree => (.nothing, tree :: stack)
    | none => (.notJson, stack)
  | .duplicate => match stack with
    | tree :: rest => (.nothing, tree :: tree :: rest)
    | [] => (.underflow, stack)
  | .drop => match stack with
    | _ :: rest => (.nothing, rest)
    | [] => (.underflow, stack)
  | .swap => match stack with
    | first :: second :: rest => (.nothing, second :: first :: rest)
    | _ => (.underflow, stack)
  | .child side => match stack with
    | [] => (.underflow, stack)
    | .number _ :: _ => (.isLeaf, stack)
    | .binary _ left right :: _ => (.nothing, (if side = .left then left else right) :: stack)
  | .kind => ask stack fun
    | .number v => .number v
    | .binary op _ _ => .operator op
  | .equal => match stack with
    | first :: second :: _ => (.truth (second.numEq first), stack)
    | _ => (.underflow, stack)
  | .describe => ask stack fun tree => .description (.ofTree tree)
  | .evaluate => ask stack fun tree => .value tree.evaluate
  | .outline indent => ask stack fun tree => .text (tree.outline indent)
  | .indentedJson => ask stack fun tree => .text tree.toJson.indented
  | .rebuild => match stack with
    | tree :: _ => pushTree stack (Postfix.toTree (wordsOf tree.postfixText))
    | [] => (.underflow, stack)
  | .reparse => match stack with
    | tree :: _ => pushTree stack (Expr.parse tree.infixText)
    | [] => (.underflow, stack)
  | .unknown name => (.unknownStep name, stack)

/-- Carries out steps one after the other; with each answer comes the stack behind its step. -/
def perform (stack : List Expr) : List Step → List (Answer × List Expr)
  | [] => []
  | s :: steps =>
    let next := step stack s
    next :: perform next.2 steps

end Workbench

end InfixCalc
