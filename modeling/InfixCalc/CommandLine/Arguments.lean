/-!
# Command line arguments

The commands of the program and their arguments. Flags may stand before or behind the positional
argument; behind `--` every argument is positional.
-/

namespace InfixCalc

namespace CommandLine

/-- Which intermediate results are printed. -/
structure Dumps where
  tokens : Bool
  postfixWords : Bool
  tree : Bool
deriving DecidableEq, Repr

inductive Command where
  /-- Without an expression it is read from the input. -/
  | eval (expression : Option String) (dumps : Dumps)
  | check (expression : String)
  | file (path : String)
  | repl
deriving DecidableEq, Repr

/-- What the arguments ask for. -/
inductive Invocation where
  | command (command : Command) (verbose : Bool)
  | version
  | help
  /-- The arguments are wrong. -/
  | misuse
deriving DecidableEq, Repr

/-- The flags of the program and its commands. -/
inductive Flag where
  | verbose
  | dumpTokens
  | dumpPostfix
  | dumpTree
  | help
  | version
  /-- No command knows this one. -/
  | unknown
deriving DecidableEq, Repr

namespace Flag

/-- The flag with a long name. -/
def ofName : String → Flag
  | "verbose" => verbose
  | "dump-tokens" => dumpTokens
  | "dump-postfix" => dumpPostfix
  | "dump-ast" => dumpTree
  | "help" => help
  | "version" => version
  | _ => unknown

/-- The flag with a letter. -/
def ofLetter : Char → Flag
  | 'v' => verbose
  | 'h' => help
  | 'V' => version
  | _ => unknown

end Flag

/-- One argument. -/
inductive Argument where
  | positional (text : String)
  | flags (flags : List Flag)
  /-- From here on every argument is positional. -/
  | terminator
deriving DecidableEq, Repr

/-- An argument that begins with a hyphen and has more to it names flags: one by its long name, or
several by their letters. -/
def Argument.ofText (text : String) : Argument :=
  match text.toList with
  | ['-', '-'] => terminator
  | '-' :: '-' :: name => flags [.ofName (String.ofList name)]
  | '-' :: letter :: letters => flags ((letter :: letters).map .ofLetter)
  | _ => positional text

/-- The arguments of a command that have been met. -/
structure Given where
  positionals : List String
  flags : List Flag
deriving DecidableEq, Repr

/-- How the reading of flags ends early. -/
inductive Stop where
  | misuse
  | version
  | help
deriving DecidableEq, Repr

/-- Adds flags one by one. Those that ask for help or the version end the reading at once; no other may
be given twice. -/
def addFlags (allowed : List Flag) (given : List Flag) : List Flag → Except Stop (List Flag)
  | [] => .ok given
  | flag :: flags =>
    if flag ∉ allowed ∨ flag ∈ given then .error .misuse
    else match flag with
      | .help => .error .help
      | .version => .error .version
      | flag => addFlags allowed (flag :: given) flags

/-- What a command takes beside its name. -/
structure Shape where
  flags : List Flag
  /-- The most positional arguments it has. -/
  room : Nat
  /-- Whether a text may be a positional argument. -/
  admits : String → Bool

/-- Reads the arguments of a command. Each is judged when it is reached, so that one that is wrong
counts before a later request for help, and not after it. -/
def readArguments (shape : Shape) (given : Given) (onlyPositional : Bool) :
    List String → Except Stop Given
  | [] => .ok ⟨given.positionals.reverse, given.flags⟩
  | text :: rest =>
    match if onlyPositional then .positional text else Argument.ofText text with
    | .positional text =>
      if given.positionals.length < shape.room ∧ shape.admits text then
        readArguments shape ⟨text :: given.positionals, given.flags⟩ onlyPositional rest
      else .error .misuse
    | .flags fs => match addFlags shape.flags given.flags fs with
      | .error stop => .error stop
      | .ok flags => readArguments shape ⟨given.positionals, flags⟩ onlyPositional rest
    | .terminator => readArguments shape given true rest

/-- Reads the arguments behind the name of a command. Any text may be an expression, but an empty one
is no path. -/
def readCommand (verbose : Bool) (name : String) (rest : List String) : Invocation :=
  let read := fun (flags : List Flag) (room : Nat) (admits : String → Bool)
      (finish : Given → Option Command) =>
    match readArguments ⟨flags ++ [.verbose, .help], room, admits⟩ ⟨[], []⟩ false rest with
    | .error .misuse => .misuse
    | .error .version => .version
    | .error .help => .help
    | .ok given => match finish given with
      | some command => .command command (verbose || given.flags.contains .verbose)
      | none => .misuse
  let anything := fun (_ : String) => true
  match name with
  | "eval" => read [.dumpTokens, .dumpPostfix, .dumpTree] 1 anything fun given =>
    some (.eval given.positionals.head?
      ⟨given.flags.contains .dumpTokens, given.flags.contains .dumpPostfix,
        given.flags.contains .dumpTree⟩)
  | "check" => read [] 1 anything fun given => given.positionals.head?.map .check
  | "file" => read [] 1 (· ≠ "") fun given => given.positionals.head?.map .file
  | "repl" => read [] 0 anything fun _ => some .repl
  | "help" => match rest with
    | [] => .help
    | [name] => if ["eval", "check", "file", "repl", "help"].contains name then .help else .misuse
    | _ => .misuse
  | _ => .misuse

/-- Reads the arguments of the program: flags, and then a command. -/
def readProgram (flags : List Flag) : List String → Invocation
  | [] => .misuse
  | text :: rest =>
    match Argument.ofText text with
    | .positional name => readCommand (flags.contains .verbose) name rest
    | .flags fs => match addFlags [.verbose, .help, .version] flags fs with
      | .error .misuse => .misuse
      | .error .version => .version
      | .error .help => .help
      | .ok flags => readProgram flags rest
    | .terminator => .misuse

/-- What a list of arguments asks for. -/
def Invocation.ofArguments (arguments : List String) : Invocation := readProgram [] arguments

end CommandLine

end InfixCalc
