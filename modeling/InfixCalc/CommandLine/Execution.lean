import InfixCalc.Batch
import InfixCalc.CommandLine.Arguments
import InfixCalc.Directory
import InfixCalc.Expr.Json
import InfixCalc.Session
/-!
# Executing a command

The effect of a command on the two output streams, and the exit status. The commands see the outside
only through an environment, so that an execution is a function of it.

Logging is assumed to be turned off. A logger that is on writes its records to the standard error too; which
records a run or a batch has to offer is said by `run` and `Batch.evaluateLogged`.
-/

namespace InfixCalc

namespace CommandLine

/-- What a command sees of the outside. -/
structure Environment where
  /-- The standard input. -/
  stdin : ByteArray
  /-- The bytes of a file. -/
  readFile : String → Except ReadError ByteArray
  style : Text.Style

/-- How an execution ends. -/
inductive Outcome where
  | finished (status : Nat) (output : Output)
  /-- The arguments are wrong, and nothing is done. -/
  | misuse
deriving DecidableEq, Repr

/-- An execution that may break off: what has been printed so far, and the result, or nothing if it has
failed. -/
structure Step (α : Type) where
  output : Output
  result? : Option α

namespace Step

variable {α β : Type}

def done (output : Output) (a : α) : Step α := ⟨output, some a⟩

def fail (output : Output) : Step α := ⟨output, none⟩

/-- Prints something and goes on. -/
def say (output : Output) : Step Unit := done output ()

/-- Goes on unless the first step has failed. -/
def andThen (x : Step α) (f : α → Step β) : Step β :=
  match x.result? with
  | none => ⟨x.output, none⟩
  | some a =>
    let y := f a
    ⟨x.output ++ y.output, y.result?⟩

/-- The status is zero exactly if the execution has not failed. -/
def toOutcome (x : Step Unit) : Outcome := .finished (if x.result?.isSome then 0 else 1) x.output

end Step

/-- The last word of a command that fails. -/
def lastWord (style : Text.Style) (text : String) : Output :=
  .complain (style.redHeading "error" ++ ": " ++ text ++ "\n")

def failure {α : Type} (style : Text.Style) (text : String) : Step α := .fail (lastWord style text)

/-- A stage of parsing. Its error is drawn, and the name of the stage told. -/
def stage {α : Type} (style : Text.Style) (file : SourceFile) (name : String)
    (result : Except ParseError α) : Step α :=
  match result with
  | .ok a => .done .empty a
  | .error e =>
    Step.andThen (.say (.complain (e.draw style file))) fun _ => failure style (name ++ " failed")

def tokenStage (style : Text.Style) (file : SourceFile) : Step (List Lexeme) :=
  stage style file "Tokenizing" (Lexeme.tokenize file.source)

def postfixStage (style : Text.Style) (file : SourceFile) (lexemes : List Lexeme) :
    Step (List String) :=
  stage style file "Postfix conversion" (Postfix.ofLexemes lexemes)

def treeStage (style : Text.Style) (file : SourceFile) (words : List String) : Step Expr :=
  stage style file "Parsing" (Postfix.toTree words)

/-- The file name of an expression that is given as an argument or line of input. -/
def inputFile (expression : String) : SourceFile := ⟨"<input>", expression⟩

/-! ## Dumps -/

def padLeft (width : Nat) (text : String) : String := "".pushn ' ' (width - text.length) ++ text

def padRight (width : Nat) (text : String) : String := text.pushn ' ' (width - text.length)

/-- One row of the token dump. -/
def tokenRow (entry : Lexeme × Nat) : String :=
  padLeft 4 (toString entry.2) ++ ": " ++ padRight 7 entry.1.token.text ++ " " ++
    toString entry.1.span.start ++ ".." ++ toString entry.1.span.stop ++ "\n"

/-- A section with a title, closed by an empty line, if it is wanted. -/
def titled (style : Text.Style) (wanted : Bool) (title body : String) : Output :=
  if wanted then .print (style.blueHeading ("=== " ++ title ++ " ===") ++ "\n" ++ body ++ "\n")
  else .empty

/-- All lexemes, those of unknown characters included. -/
def tokenDump (style : Text.Style) (wanted : Bool) (source : String) : Output :=
  titled style wanted "Tokens" (String.join ((Lexeme.scan source).zipIdx.map tokenRow))

def postfixDump (style : Text.Style) (wanted : Bool) (words : List String) : Output :=
  titled style wanted "Postfix" (" ".intercalate words ++ "\n")

def treeDump (style : Text.Style) (wanted : Bool) (tree : Expr) : Output :=
  titled style wanted "AST" (tree.toJson.indented ++ "\n")

/-! ## Commands -/

/-- The expression on the first line of the input. -/
def readExpression (env : Environment) : Step String :=
  let prompt := Output.print "Enter an expression: "
  match Text.streamLines env.stdin with
  | [] => .done prompt ""
  | none :: _ =>
    Step.andThen (.say prompt) fun _ => failure env.style "Failed to read expression from stdin"
  | some line :: _ => .done prompt (String.ofList (Text.dropTrailing (· == '\r') line.toList))

/-- Prints a report; an expression without a value fails. -/
def printReport (style : Text.Style) (report : Report) : Step Unit :=
  match report.result with
  | .ok _ => .say (.print (report.printed style))
  | .error _ => .fail (.print (report.printed style))

/-- Evaluates an expression, with dumps of the stages on the way. -/
def evaluate (style : Text.Style) (dumps : Dumps) (expression : String) : Step Unit :=
  let file := inputFile expression
  Step.andThen (.say (tokenDump style dumps.tokens expression)) fun _ =>
  Step.andThen (tokenStage style file) fun lexemes =>
  Step.andThen (postfixStage style file lexemes) fun words =>
  Step.andThen (.say (postfixDump style dumps.postfixWords words)) fun _ =>
  Step.andThen (treeStage style file words) fun tree =>
  Step.andThen (.say (treeDump style dumps.tree tree)) fun _ =>
  printReport style (.ofTree expression tree)

/-- Looks for errors in an expression without evaluating it. -/
def check (style : Text.Style) (expression : String) : Step Unit :=
  let file := inputFile expression
  Step.andThen (tokenStage style file) fun lexemes =>
  Step.andThen (postfixStage style file lexemes) fun words =>
  Step.andThen (treeStage style file words) fun _ =>
  .say (.print (style.greenHeading "success" ++ ": No errors found\n"))

/-- One row of the answer to a file. -/
def outcomeRow (style : Text.Style) (outcome : LineOutcome) : String :=
  padLeft 4 (toString outcome.line) ++ ": " ++ outcome.expression ++
    (match outcome.outcome with
      | .ok v => " = " ++ v.text
      | .error e => " => " ++ style.red e.message) ++ "\n"

def isFailure (outcome : LineOutcome) : Bool :=
  match outcome.outcome with
  | .ok _ => false
  | .error _ => true

/-- The outcomes of a file and how many of them are failures. -/
def printOutcomes (style : Text.Style) (outcomes : List LineOutcome) : Step Unit :=
  Step.andThen (.say (.print (String.join (outcomes.map (outcomeRow style))))) fun _ =>
  let failures := (outcomes.filter isFailure).length
  if failures = 0 then
    .say (.print (style.greenHeading "success" ++ ": Evaluated " ++ toString outcomes.length ++
      " expressions\n"))
  else
    failure style (toString failures ++ " of " ++ toString outcomes.length ++ " expressions failed")

/-- Evaluates the lines of a file. -/
def evaluateFile (env : Environment) (path : String) : Step Unit :=
  match (env.readFile path).bind decodeText with
  | .ok source => printOutcomes env.style (Batch.evaluate source)
  | .error _ => failure env.style ("Failed to evaluate " ++ Text.quoted path)

/-- Holds a session with the standard input. -/
def converse (env : Environment) : Step Unit :=
  let (output, ending) := Session.converse env.style (Text.streamLines env.stdin)
  match ending with
  | .quit | .endOfInput => .say output
  | .notText => Step.andThen (.say output) fun _ => failure env.style ReadError.notText.reason

def execute (env : Environment) : Command → Step Unit
  | .eval (some expression) dumps => evaluate env.style dumps expression
  | .eval none dumps => (readExpression env).andThen (evaluate env.style dumps)
  | .check expression => check env.style expression
  | .file path => evaluateFile env path
  | .repl => converse env

def versionText : String := "exprtree 0.1.0\n"

def helpText : String :=
  "Arithmetic expression parser and evaluator\n\nUsage: exprtree [OPTIONS] <COMMAND>\n\n" ++
    "Commands:\n" ++
    "  eval   Parse an expression, print its notations and evaluate it\n" ++
    "  check  Check an expression for errors without evaluating it\n" ++
    "  file   Evaluate every non-blank line of a file\n" ++
    "  repl   Start an interactive REPL\n" ++
    "  help   Print this message or the help of the given subcommand(s)\n\n" ++
    "Options:\n" ++
    "  -v, --verbose  Enable verbose output\n" ++
    "  -h, --help     Print help\n" ++
    "  -V, --version  Print version\n"

/-- Does what the arguments ask for. Being verbose asks for more log records only, so that it changes nothing
on the output streams as long as logging is turned off. -/
def perform (env : Environment) : Invocation → Outcome
  | .command command _ => (execute env command).toOutcome
  | .version => .finished 0 (.print versionText)
  | .help => .finished 0 (.print helpText)
  | .misuse => .misuse

end CommandLine

end InfixCalc
