import InfixCalc.Token
import InfixCalc.Error
/-!
# Scanning

The lexemes of a source text. Blanks and tabs separate tokens; a number is a run of digits and points
that cannot be prolonged; a character that begins no token is a lexeme of its own, and the scan goes
on behind it.
-/

namespace InfixCalc

namespace Token

/-- The characters that only separate tokens. -/
def isSeparator (c : Char) : Bool := c == ' ' || c == '\t'

/-- The characters numbers are made of. -/
def isNumeral (c : Char) : Bool := c.isDigit || c == '.'

/-- The token of a character that is neither a separator nor part of a number. -/
def ofChar (c : Char) : Token :=
  match c with
  | '(' => opening
  | ')' => closing
  | c => match Operator.ofSymbol? c with
    | some op => operator op
    | none => unknown c

end Token

namespace Lexeme

/-- Puts a character of a number, at byte `start`, in front of the lexemes behind it: it prolongs a
number that begins right behind it, and is a number of its own otherwise. -/
def consNumeral (start : Nat) (c : Char) : List Lexeme → List Lexeme
  | ⟨.number text, span⟩ :: rest =>
    if span.start = start + c.utf8Size then
      ⟨.number (c.toString ++ text), ⟨start, span.stop⟩⟩ :: rest
    else
      ⟨.number c.toString, ⟨start, start + c.utf8Size⟩⟩ :: ⟨.number text, span⟩ :: rest
  | rest => ⟨.number c.toString, ⟨start, start + c.utf8Size⟩⟩ :: rest

/-- The lexemes of the source text from byte `start` on. -/
def scanFrom (start : Nat) : List Char → List Lexeme
  | [] => []
  | c :: cs =>
    let rest := scanFrom (start + c.utf8Size) cs
    if Token.isSeparator c then rest
    else if Token.isNumeral c then consNumeral start c rest
    else ⟨Token.ofChar c, ⟨start, start + c.utf8Size⟩⟩ :: rest

/-- All lexemes of a source text, those of unknown characters included. -/
def scan (source : String) : List Lexeme := scanFrom 0 source.toList

/-- A lexeme of an unknown character is an error. -/
def error? (lexeme : Lexeme) : Option ParseError :=
  match lexeme.token with
  | .unknown char => some (.strangeCharacter char lexeme.span)
  | _ => none

/-- The lexemes of a source text without unknown characters. The first such character is the error. -/
def tokenize (source : String) : Except ParseError (List Lexeme) :=
  let lexemes := scan source
  match lexemes.findSome? error? with
  | some error => .error error
  | none => .ok lexemes

end Lexeme

end InfixCalc
