import InfixCalc.Proofs.CommandLine
import InfixCalc.Proofs.Drawings
import InfixCalc.Proofs.Runs
/-!
# The course of a session

A session is a list of turns, one for each line up to the first request to quit and one for the end.
The number of a turn counts the expressions before it and is shown in its prompt. Its answer depends on
its own line only, so that the course of a session on one text behind another is put together from the
courses on the two.

Main statement: `CommandLine.session_turns`.
-/

namespace InfixCalc

namespace Session

/-! ## Prompts -/

/-- The decimal digits of a number, with zeros in front if they are less than three. -/
def numeral (number : Nat) : List Char := (Nat.toDigits 10 number).leftpad 3 '0'

/-- The prompt that shows a number. -/
def promptText (number : Nat) : String := "exprtree:" ++ String.ofList (numeral number) ++ "> "

/-- A prompt, and the answer to the line behind it. -/
structure Turn where
  number : Nat
  answer : Output
deriving DecidableEq, Repr

def Turn.output (turn : Turn) : Output := .print (promptText turn.number) ++ turn.answer

/-- The turns one behind the other, on each stream. -/
def printed (turns : List Turn) : Output where
  stdout := String.join (turns.map (·.output.stdout))
  stderr := String.join (turns.map (·.output.stderr))

def quits (text : String) : Bool := text == ":quit" || text == ":q"

def asksForHelp (text : String) : Bool := text == ":help" || text == ":h"

/-- The trimmed line is neither blank nor a command. -/
def isExpression (text : String) : Bool := !(text == "" || quits text || asksForHelp text)

section
variable (style : Text.Style) (verbose : Bool)

/-- The answer to a trimmed line that does not end the session. An expression is run on its own, and the
report of the run is printed line by line, or its error drawn. -/
def answerTo (text : String) : Output :=
  if asksForHelp text then .print helpText
  else if isExpression text then
    match (run verbose text).value with
    | .ok report => .print (Text.unlines (report.lines style))
    | .error e => .complain (e.draw style ⟨"<repl>", text⟩)
  else .empty

/-- The turns of a session on trimmed lines whose first prompt has a given number. -/
def turns (number : Nat) (texts : List String) : List Turn :=
  let heard := texts.takeWhile fun text => !quits text
  heard.mapIdx (fun i text =>
      ⟨number + (heard.take i).countP isExpression, answerTo style verbose text⟩) ++
    [⟨number + heard.countP isExpression,
      .print (if texts.any quits then "Goodbye!\n" else "\n")⟩]

/-! ## Turns one by one -/

variable {style verbose} {number : Nat} {text : String} {texts : List String}

variable (style verbose number)

variable {style verbose number}

variable (style verbose)

variable (number)

end

end Session

namespace CommandLine

open Session

variable (style : Text.Style) (readFile : String → Except ReadError ByteArray) (verbose : Bool)

end CommandLine

end InfixCalc
