import InfixCalc.CommandLine.Execution
/-!
# The program

Reads the arguments and the input, and prints what the command has to say. A session is answered line
by line.
-/

namespace InfixCalc

namespace Program

/-- The bytes up to and including the next newline, or up to the end of the input. -/
partial def readLineBytes (stream : IO.FS.Stream) (line : ByteArray) : IO ByteArray := do
  let bytes ← stream.read 1
  if bytes.isEmpty then return line
  let line := line ++ bytes
  if bytes.toList = [10] then return line else readLineBytes stream line

def emit (output : Output) : IO Unit := do
  IO.print output.stdout
  IO.eprint output.stderr
  (← IO.getStdout).flush

/-- Answers the lines of the input as they come. -/
partial def answerLines (style : Text.Style) (number : Nat) : IO UInt32 := do
  emit (.print (Session.prompt number))
  let bytes ← readLineBytes (← IO.getStdin) .empty
  match Text.streamLines bytes with
  | [] =>
    emit (.print "\n")
    return 0
  | none :: _ =>
    emit (CommandLine.lastWord style ReadError.notText.reason)
    return 1
  | some line :: _ =>
    let (output, next) := Session.reply style number line
    emit output
    match next with
    | none => return 0
    | some next => answerLines style next

/-- The bytes of the file that a command asks for. -/
def fetch : CommandLine.Invocation → IO (Except ReadError ByteArray)
  | .command (.file path) _ => do
    try
      return .ok (← IO.FS.readBinFile path)
    catch
      | .noFileOrDirectory .. => return .error .notFound
      | _ => return .error .isDirectory
  | _ => return .error .notFound

/-- The first line of the input, for a command that asks for it. -/
def fetchLine : CommandLine.Invocation → IO ByteArray
  | .command (.eval none _) _ => do readLineBytes (← IO.getStdin) .empty
  | _ => return .empty

/-- Colours are forced on by a variable of the environment. -/
def style : IO Text.Style := do
  let forced ← IO.getEnv "CLICOLOR_FORCE"
  return ⟨forced.isSome && forced != some "0"⟩

def run (arguments : List String) : IO UInt32 := do
  let style ← style
  match CommandLine.Invocation.ofArguments arguments with
  | .command .repl _ =>
    emit (.print (Session.greeting style))
    answerLines style 1
  | invocation =>
    let content ← fetch invocation
    let line ← fetchLine invocation
    let env : CommandLine.Environment := ⟨line, fun _ => content, style⟩
    match CommandLine.perform env invocation with
    | .finished status output =>
      emit output
      return UInt32.ofNat status
    | .misuse =>
      IO.eprint "error: wrong arguments\n\nFor more information, try '--help'.\n"
      return 2

end Program

end InfixCalc

def main (arguments : List String) : IO UInt32 := InfixCalc.Program.run arguments
