import InfixCalc.Diagnostic.Drawing
import InfixCalc.Run
import InfixCalc.Text.Lines
/-!
# Interactive sessions

A session answers the lines of its input one by one. A line is a command, blank, or an expression;
only expressions are counted in the prompt.
-/

namespace InfixCalc

/-- What a program has written to its two output streams. -/
structure Output where
  stdout : String
  stderr : String
deriving DecidableEq, Repr

namespace Output

def empty : Output := ⟨"", ""⟩

/-- One output behind the other, on each stream. -/
def append (a b : Output) : Output := ⟨a.stdout ++ b.stdout, a.stderr ++ b.stderr⟩

instance : Append Output := ⟨append⟩

def print (text : String) : Output := ⟨text, ""⟩

def complain (text : String) : Output := ⟨"", text⟩

end Output

/-- The last line of a report: the value, or why there is none. -/
def Report.resultLine (style : Text.Style) (report : Report) : String :=
  match report.result with
  | .ok v => style.greenHeading "Result" ++ ": " ++ v.text ++ "\n"
  | .error e => style.redHeading "Evaluation error" ++ ": " ++ e.message ++ "\n"

/-- A report as it is printed. -/
def Report.printed (style : Text.Style) (report : Report) : String :=
  "Prefix notation: " ++ report.prefixText ++ "\n" ++
    "Postfix notation: " ++ report.postfixText ++ "\n" ++
    "Infix notation: " ++ report.infixText ++ "\n" ++
    "AST structure (formatted):\n" ++ report.outline ++ "\n" ++ report.resultLine style

/-- The drawing of a parse error in its source. -/
def ParseError.draw (style : Text.Style) (file : SourceFile) (error : ParseError) : String :=
  ((Failure.parse error).toDiagnostic 0).draw style file

namespace Session

/-- What a line of input asks for. -/
inductive Request where
  | quit
  | help
  | nothing
  | evaluate (expression : String)
deriving DecidableEq, Repr

/-- White space around a line does not matter. -/
def Request.ofLine (line : String) : Request :=
  let text := Text.trim line
  if text = ":quit" ∨ text = ":q" then quit
  else if text = ":help" ∨ text = ":h" then help
  else if text = "" then nothing
  else evaluate text

def greeting (style : Text.Style) : String :=
  style.blueHeading "exprtree REPL" ++ "\nType ':quit' or ':q' to exit, ':help' for help\n\n"

/-- The number of the next expression, in three digits at least. -/
def prompt (number : Nat) : String :=
  let digits := toString number
  "exprtree:" ++ "".pushn '0' (3 - digits.length) ++ digits ++ "> "

def helpText : String :=
  "REPL commands:\n  :quit, :q    Exit the REPL\n  :help, :h    Show this help message\n" ++
    "\nEnter an expression using numbers, + - * / ^ and parentheses.\n"

/-- The answer to an expression, which depends on nothing else. -/
def answer (style : Text.Style) (expression : String) : Output :=
  match (run false expression).value with
  | .ok report => .print (report.printed style)
  | .error e => .complain (e.draw style ⟨"<repl>", expression⟩)

/-- The answer to one line, and the number of the next expression unless the session ends. -/
def reply (style : Text.Style) (number : Nat) (line : String) : Output × Option Nat :=
  match Request.ofLine line with
  | .quit => (.print "Goodbye!\n", none)
  | .help => (.print helpText, some number)
  | .nothing => (.empty, some number)
  | .evaluate expression => (answer style expression, some (number + 1))

/-- How a session ended. -/
inductive Ending where
  | quit
  | endOfInput
  /-- A line of the input is no text. -/
  | notText
deriving DecidableEq, Repr

/-- Answers the lines of the input, the next expression having the given number. -/
def answerLines (style : Text.Style) (number : Nat) : List (Option String) → Output × Ending
  | [] => (.print (prompt number ++ "\n"), .endOfInput)
  | none :: _ => (.print (prompt number), .notText)
  | some line :: lines =>
    match reply style number line with
    | (output, none) => (.print (prompt number) ++ output, .quit)
    | (output, some next) =>
      let (rest, ending) := answerLines style next lines
      (.print (prompt number) ++ output ++ rest, ending)

/-- A whole session. -/
def converse (style : Text.Style) (lines : List (Option String)) : Output × Ending :=
  let (output, ending) := answerLines style 1 lines
  (.print (greeting style) ++ output, ending)

end Session

end InfixCalc
