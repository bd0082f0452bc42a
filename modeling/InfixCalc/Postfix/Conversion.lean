import InfixCalc.Error
import InfixCalc.Number.Reading
import InfixCalc.Number.Text
import InfixCalc.Token
/-!
# From lexemes to a postfix word list

Numbers are passed on at once, in their canonical text. Operators and opening parentheses wait on a
stack until what comes next shows that their operands are complete: an operator releases those that
apply before it, a closing parenthesis those of its group, and the end all that are left.
-/

namespace InfixCalc

namespace Postfix

/-- An entry of the waiting stack. -/
inductive Pending where
  | opening (span : Span)
  | operator (op : Operator)
deriving DecidableEq, Repr

/-- Takes the operators that satisfy a condition off the top of the stack, down to the next
parenthesis. -/
def release (p : Operator → Bool) : List Pending → List Operator × List Pending
  | .operator op :: below =>
    if p op then
      let (ops, rest) := release p below
      (op :: ops, rest)
    else ([], .operator op :: below)
  | stack => ([], stack)

/-- Takes the operators of the innermost group off the stack, together with its parenthesis. -/
def closeGroup? : List Pending → Option (List Operator × List Pending)
  | [] => none
  | .opening _ :: below => some ([], below)
  | .operator op :: below => (closeGroup? below).map fun (ops, rest) => (op :: ops, rest)

/-- Takes everything off the stack at the end. An opening parenthesis was never closed. -/
def drain : List Pending → Except ParseError (List Operator)
  | [] => .ok []
  | .opening span :: _ => .error (.unmatchedParenthesis span)
  | .operator op :: below => (drain below).map (op :: ·)

/-- One lexeme: the words it passes on, and the stack behind it. -/
def step (stack : List Pending) (lexeme : Lexeme) :
    Except ParseError (List String × List Pending) :=
  match lexeme.token with
  | .number text => match Number.ofText? text with
    | some v => .ok ([v.text], stack)
    | none => .error (.invalidToken text lexeme.span)
  | .operator op =>
    let (ops, rest) := release (·.appliesBefore op) stack
    .ok (ops.map Operator.text, .operator op :: rest)
  | .opening => .ok ([], .opening lexeme.span :: stack)
  | .closing => match closeGroup? stack with
    | some (ops, rest) => .ok (ops.map Operator.text, rest)
    | none => .error (.unmatchedParenthesis lexeme.span)
  | .unknown _ => .error (.invalidToken lexeme.token.text lexeme.span)

/-- The words that a list of lexemes passes on, and the stack behind the last of them. -/
def feed (stack : List Pending) : List Lexeme → Except ParseError (List String × List Pending)
  | [] => .ok ([], stack)
  | lexeme :: lexemes =>
    match step stack lexeme with
    | .error e => .error e
    | .ok (words, next) => (feed next lexemes).map fun (rest, last) => (words ++ rest, last)

/-- The postfix word list of an expression. -/
def ofLexemes (lexemes : List Lexeme) : Except ParseError (List String) :=
  match feed [] lexemes with
  | .error e => .error e
  | .ok (words, stack) => (drain stack).map fun ops => words ++ ops.map Operator.text

end Postfix

end InfixCalc
