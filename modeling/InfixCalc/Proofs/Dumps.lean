import InfixCalc.Proofs.EntryPoints
/-!
# Dumps

An evaluation that is asked for dumps does what it does without them, and prints a section for each
stage that is asked for and reached.

Main statements:

* `CommandLine.evaluate_eq_printing`: the sections stand in front of what is printed without them;
* `CommandLine.ofArguments_evaluating`: the flags that ask for dumps, in any order;
* `CommandLine.dumps_only_print`.
-/

namespace InfixCalc

namespace CommandLine

/-! ## Sections -/

/-- Some lines between a title and an empty line, if they are wanted. -/
def sectionIf (style : Text.Style) (wanted : Bool) (title body : String) : String :=
  if wanted then style.blueHeading ("=== " ++ title ++ " ===") ++ "\n" ++ body ++ "\n" else ""

@[simp] theorem sectionIf_false (style : Text.Style) (title body : String) :
    sectionIf style false title body = "" := rfl

/-- The rows of the token dump. -/
def tokenRows (source : String) : List String := (Lexeme.scan source).zipIdx.map tokenRow

/-- The sections that are wanted, in the order of the stages. The tokens are always there to be listed,
the postfix words if the source is converted, and the tree if it is built. -/
def sections (style : Text.Style) (dumps : Dumps) (source : String) : String :=
  sectionIf style dumps.tokens "Tokens" (String.join (tokenRows source)) ++
  (match Postfix.ofSource source with
    | .ok words => sectionIf style dumps.postfixWords "Postfix" (" ".intercalate words ++ "\n")
    | .error _ => "") ++
  (match Expr.parse source with
    | .ok tree => sectionIf style dumps.tree "AST" (tree.toJson.indented ++ "\n")
    | .error _ => "")

theorem sections_none (style : Text.Style) (source : String) :
    sections style ⟨false, false, false⟩ source = "" := by
  unfold sections
  cases Postfix.ofSource source <;> cases Expr.parse source <;> rfl

/-! ## Printing in front -/

/-- Prints a text first. -/
def Step.printing {α : Type} (text : String) (x : Step α) : Step α :=
  ⟨.print text ++ x.output, x.result?⟩

section
variable {α : Type} (style : Text.Style)

theorem Step.printing_printing (a b : String) (x : Step α) :
    printing a (printing b x) = printing (a ++ b) x := by
  show mk (Output.print a ++ (Output.print b ++ x.output)) x.result? = _
  rw [← Output.append_assoc, Output.print_append_print]
  rfl

@[simp] theorem Step.printing_empty (x : Step α) : printing "" x = x := by
  show mk (.empty ++ x.output) x.result? = x
  rw [Output.empty_append]

/-- A dump prints a section. -/
theorem andThen_titled (wanted : Bool) (title body : String) (f : Unit → Step α) :
    (Step.say (titled style wanted title body)).andThen f =
      (f ()).printing (sectionIf style wanted title body) := by
  cases wanted <;> rfl

end

/-- **The sections stand in front of what is printed without them.** -/
theorem evaluate_eq_printing (style : Text.Style) (dumps : Dumps) (source : String) :
    evaluate style dumps source =
      (evaluate style ⟨false, false, false⟩ source).printing (sections style dumps source) := by
  have hsource : Postfix.ofSource source = (Lexeme.tokenize source).bind Postfix.ofLexemes := rfl
  have hparse : Expr.parse source = (Postfix.ofSource source).bind Postfix.toTree := rfl
  simp only [evaluate, tokenDump, postfixDump, treeDump, andThen_titled, sectionIf_false,
    Step.printing_empty, tokenStage, postfixStage, treeStage, inputFile, sections, tokenRows]
  -- The sections of the stages up to the one that fails are printed.
  rcases htokens : Lexeme.tokenize source with e | lexemes
  · rw [htokens] at hsource
    rw [hsource] at hparse
    simp only [hsource, hparse, Except.bind, andThen_stage_error, String.append_empty]
  rw [htokens] at hsource
  simp only [andThen_stage_ok]
  rcases hwords : Postfix.ofLexemes lexemes with e | words
  · rw [Except.bind, hwords] at hsource
    rw [hsource] at hparse
    simp only [hsource, hparse, Except.bind, andThen_stage_error, String.append_empty]
  rw [Except.bind, hwords] at hsource
  rw [hsource] at hparse
  simp only [andThen_stage_ok, hsource]
  rcases htree : Postfix.toTree words with e | tree
  · rw [Except.bind, htree] at hparse
    simp only [hparse, andThen_stage_error, Step.printing_printing, String.append_empty]
  · rw [Except.bind, htree] at hparse
    simp only [hparse, andThen_stage_ok, Step.printing_printing, String.append_assoc]

/-! ## Rows -/

/-- A row shows the number of a lexeme, its token and its span. An unknown character is shown as an
error. -/
def rowText (number : Nat) (lexeme : Lexeme) : String :=
  let shown := match lexeme.token with
    | .unknown _ => "<error>"
    | token => token.text
  padLeft 4 (toString number) ++ ": " ++ padRight 7 shown ++ " " ++
    toString lexeme.span.start ++ ".." ++ toString lexeme.span.stop ++ "\n"

/-- There is a row for each of the lexemes, in their order and numbered from zero. -/
def Lists (rows : List String) (lexemes : List Lexeme) : Prop :=
  rows.length = lexemes.length ∧
    ∀ i lexeme, lexemes[i]? = some lexeme → rows[i]? = some (rowText i lexeme)

theorem tokenRow_eq (lexeme : Lexeme) (number : Nat) :
    tokenRow (lexeme, number) = rowText number lexeme := by
  obtain ⟨token, span⟩ := lexeme
  cases token <;> rfl

theorem lists_tokenRows (source : String) : Lists (tokenRows source) (Lexeme.scan source) := by
  refine ⟨by rw [tokenRows, List.length_map, List.length_zipIdx], fun i lexeme hi => ?_⟩
  rw [tokenRows, List.getElem?_map, List.getElem?_zipIdx, hi, Nat.zero_add]
  exact congrArg some (tokenRow_eq lexeme i)

/-! ## Flags -/

/-- The stages whose results can be dumped. -/
inductive DumpedStage where
  | tokens
  | postfixWords
  | tree
deriving DecidableEq, Repr

namespace DumpedStage

def flag : DumpedStage → Flag
  | tokens => .dumpTokens
  | postfixWords => .dumpPostfix
  | tree => .dumpTree

/-- The argument that asks for a dump. -/
def argument : DumpedStage → String
  | tokens => "--dump-tokens"
  | postfixWords => "--dump-postfix"
  | tree => "--dump-ast"

theorem flag_injective : Function.Injective flag := by
  intro a b h
  cases a <;> cases b <;> first | rfl | cases h

theorem ofText_argument (stage : DumpedStage) :
    Argument.ofText stage.argument = .flags [stage.flag] := by
  cases stage <;> rfl

end DumpedStage

/-- The dumps of some stages. -/
def Dumps.ofStages (stages : List DumpedStage) : Dumps :=
  ⟨stages.contains .tokens, stages.contains .postfixWords, stages.contains .tree⟩

/-- The arguments of a program that evaluates an expression, or reads it from the input, with dumps of
some stages in any order. -/
def evaluating (verbose : Bool) (stages : List DumpedStage) (expression : Option String) :
    List String :=
  options verbose ++ "eval" ::
    (stages.map DumpedStage.argument ++ (expression.map positional).getD [])

/-- What an evaluation takes beside its name. -/
def evalShape : Shape :=
  ⟨[.dumpTokens, .dumpPostfix, .dumpTree] ++ [.verbose, .help], 1, fun _ => true⟩

theorem addFlags_flag {given : List Flag} (stage : DumpedStage) (hnew : stage.flag ∉ given) :
    addFlags evalShape.flags given [stage.flag] = .ok (stage.flag :: given) := by
  cases stage <;> simp_all [addFlags, evalShape, DumpedStage.flag]

theorem readArguments_stages {stages : List DumpedStage} (hnodup : stages.Nodup) (given : List Flag)
    (hnew : ∀ stage ∈ stages, stage.flag ∉ given) (rest : List String) :
    readArguments evalShape ⟨[], given⟩ false (stages.map DumpedStage.argument ++ rest) =
      readArguments evalShape ⟨[], (stages.map DumpedStage.flag).reverse ++ given⟩ false rest := by
  induction stages generalizing given with
  | nil => rfl
  | cons stage stages ih =>
    obtain ⟨hstage, hstages⟩ := List.nodup_cons.mp hnodup
    have hnew' : ∀ other ∈ stages, other.flag ∉ stage.flag :: given := by
      intro other hmem hgiven
      rcases List.mem_cons.mp hgiven with heq | hgiven
      · exact hstage (DumpedStage.flag_injective heq ▸ hmem)
      · exact hnew other (List.mem_cons_of_mem _ hmem) hgiven
    rw [List.map_cons, List.cons_append, readArguments]
    simp only [Bool.false_eq_true, if_false, DumpedStage.ofText_argument,
      addFlags_flag stage (hnew stage List.mem_cons_self)]
    rw [ih hstages _ hnew', List.map_cons, List.reverse_cons, List.append_assoc, List.singleton_append]

theorem contains_flag (stages : List DumpedStage) (stage : DumpedStage) :
    (stages.map DumpedStage.flag).reverse.contains stage.flag = stages.contains stage := by
  rw [Bool.eq_iff_iff, List.contains_iff_mem, List.contains_iff_mem, List.mem_reverse,
    List.mem_map_of_injective DumpedStage.flag_injective]

theorem not_contains_verbose (stages : List DumpedStage) :
    (stages.map DumpedStage.flag).reverse.contains .verbose = false := by
  rw [← Bool.not_eq_true, List.contains_iff_mem, List.mem_reverse, List.mem_map]
  rintro ⟨stage, -, hflag⟩
  cases stage <;> cases hflag

theorem ofArguments_evaluating (verbose : Bool) {stages : List DumpedStage} (hnodup : stages.Nodup)
    (expression : Option String) :
    Invocation.ofArguments (evaluating verbose stages expression) =
      .command (.eval expression (.ofStages stages)) verbose := by
  have hread : readArguments evalShape ⟨[], []⟩ false
        (stages.map DumpedStage.argument ++ (expression.map positional).getD []) =
      .ok ⟨expression.toList, (stages.map DumpedStage.flag).reverse⟩ := by
    rw [readArguments_stages hnodup [] (fun _ _ => List.not_mem_nil), List.append_nil]
    cases expression with
    | none => rfl
    | some text => exact readArguments_positional Nat.one_pos rfl
  rw [evaluating, ofArguments_options verbose (by decide), readCommand]
  dsimp only
  rw [← evalShape, hread]
  have htokens := contains_flag stages .tokens
  have hwords := contains_flag stages .postfixWords
  have htree := contains_flag stages .tree
  simp only [DumpedStage.flag] at htokens hwords htree
  simp only [htokens, hwords, htree, not_contains_verbose, Bool.or_false, Dumps.ofStages]
  cases expression <;> rfl

/-! ## Evaluations with dumps -/

/-- The sections for the expression that is read from the input, if it can be read. -/
def inputSections (env : Environment) (dumps : Dumps) : String :=
  match (readExpression env).result? with
  | some source => sections env.style dumps source
  | none => ""

theorem toOutcome_printing (text : String) (x : Step Unit) :
    (x.printing text).toOutcome =
      .finished (if x.result?.isSome then 0 else 1) ⟨text ++ x.output.stdout, x.output.stderr⟩ := by
  show Outcome.finished _ ⟨text ++ x.output.stdout, "" ++ x.output.stderr⟩ = _
  rw [String.empty_append]
  rfl

/-- The prompt is printed first, and then the input is read or the failure complained about. -/
theorem readExpression_cases (env : Environment) :
    (∃ source, readExpression env = (Step.done .empty source).printing "Enter an expression: ") ∨
      readExpression env =
        (failure env.style "Failed to read expression from stdin").printing "Enter an expression: " := by
  unfold readExpression
  dsimp only
  split
  · exact .inl ⟨"", rfl⟩
  · exact .inr rfl
  · exact .inl ⟨_, rfl⟩

/-- An expression that is read from the input is evaluated behind the prompt. -/
theorem exists_execute_input_eq (env : Environment) :
    ∃ x : Step Unit, ∀ dumps, execute env (.eval none dumps) =
      (x.printing (inputSections env dumps)).printing "Enter an expression: " := by
  rcases readExpression_cases env with ⟨source, hread⟩ | hread
  · refine ⟨evaluate env.style ⟨false, false, false⟩ source, fun dumps => ?_⟩
    have hsections : inputSections env dumps = sections env.style dumps source := by
      rw [inputSections, hread]
      rfl
    rw [execute, hread, hsections, ← evaluate_eq_printing]
    rfl
  · refine ⟨failure env.style "Failed to read expression from stdin", fun dumps => ?_⟩
    have hsections : inputSections env dumps = "" := by
      rw [inputSections, hread]
      rfl
    rw [execute, hread, hsections, Step.printing_empty]
    rfl

/-- **Dumps are only printed.** With dumps of any stages, asked for in any order, an evaluation ends with
the same status and complains about the same as without. What it prints is the sections of the stages that
are reached and then what it prints without them; a prompt for the expression comes before the sections.
The rows of the token section list the lexemes of the source, unknown characters included, and these are
the lexemes that are converted if there are no such characters. -/
theorem dumps_only_print (env : Environment) (verbose : Bool) {stages : List DumpedStage}
    (hnodup : stages.Nodup) (source : String) :
    (∃ (status : Nat) (output : Output),
      perform env (.ofArguments (evaluating verbose [] (some source))) = .finished status output ∧
      perform env (.ofArguments (evaluating verbose stages (some source))) =
        .finished status
          ⟨sections env.style (.ofStages stages) source ++ output.stdout, output.stderr⟩) ∧
    (∃ (status : Nat) (output : Output),
      perform env (.ofArguments (evaluating verbose [] none)) =
        .finished status ⟨"Enter an expression: " ++ output.stdout, output.stderr⟩ ∧
      perform env (.ofArguments (evaluating verbose stages none)) =
        .finished status
          ⟨"Enter an expression: " ++ (inputSections env (.ofStages stages) ++ output.stdout),
            output.stderr⟩) ∧
    Lists (tokenRows source) (Lexeme.scan source) ∧
    ∀ lexemes, Lexeme.tokenize source = .ok lexemes →
      Lists (tokenRows source) lexemes ∧ Postfix.ofSource source = Postfix.ofLexemes lexemes := by
  simp only [ofArguments_evaluating verbose hnodup, ofArguments_evaluating verbose List.nodup_nil,
    perform]
  refine ⟨?_, ?_, lists_tokenRows source, fun lexemes htokens => ?_⟩
  · refine ⟨_, _, rfl, ?_⟩
    rw [execute, evaluate_eq_printing, toOutcome_printing]
    rfl
  · obtain ⟨x, hx⟩ := exists_execute_input_eq env
    have hnone : inputSections env (.ofStages []) = "" := by
      unfold inputSections
      split
      · exact sections_none env.style _
      · rfl
    refine ⟨if x.result?.isSome then 0 else 1, x.output, ?_, ?_⟩
    · rw [hx, hnone, Step.printing_empty, toOutcome_printing]
    · rw [hx, Step.printing_printing, toOutcome_printing, String.append_assoc]
  · obtain ⟨rfl, -⟩ := Lexeme.tokenize_eq_ok_iff.mp htokens
    refine ⟨lists_tokenRows source, ?_⟩
    rw [Postfix.ofSource, htokens]
    rfl

/-- The tokens are listed although the conversion fails, and the tree is not reached. -/
theorem dumps_only_print_unmatched :
    let env : Environment := ⟨.empty, fun _ => .error .notFound, ⟨false⟩⟩
    let complained := "error: Invalid expression: mismatched parentheses\n" ++
      "  ┌─ <input>:1:2\n  │\n1 │ 1)\n  │  ^ no matching parenthesis\n\n" ++
      "error: Postfix conversion failed\n"
    perform env (.ofArguments ["eval", "1)"]) = .finished 1 ⟨"", complained⟩ ∧
      perform env (.ofArguments ["eval", "--dump-ast", "--dump-tokens", "1)"]) =
        .finished 1
          ⟨"=== Tokens ===\n   0: 1       0..1\n   1: )       1..2\n\n", complained⟩ := by
  intro env complained
  obtain ⟨⟨status, output, hplain, hdumped⟩, -⟩ :=
    dumps_only_print env false (by decide : [DumpedStage.tree, .tokens].Nodup) "1)"
  have hparse : Expr.parse "1)" = .error (.unmatchedParenthesis ⟨1, 2⟩) := by decide +kernel
  have houtcome : perform env (.ofArguments ["eval", "1)"]) = .finished 1 ⟨"", complained⟩ := by
    refine (perform_eval env false "1)").trans ?_
    rw [evalOutcome, value_run, hparse]
    show Outcome.finished 1 (complaint ⟨false⟩ "1)" (.unmatchedParenthesis ⟨1, 2⟩)) = _
    decide +kernel
  have hsections : sections ⟨false⟩ (.ofStages [.tree, .tokens]) "1)" =
      "=== Tokens ===\n   0: 1       0..1\n   1: )       1..2\n\n" := by
    decide +kernel
  obtain ⟨rfl, rfl⟩ := Outcome.finished.inj (hplain.symm.trans houtcome)
  refine ⟨houtcome, hdumped.trans ?_⟩
  rw [hsections, String.append_empty]

end CommandLine

end InfixCalc
