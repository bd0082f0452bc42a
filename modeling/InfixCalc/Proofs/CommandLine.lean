import InfixCalc.CommandLine.Execution
import InfixCalc.Proofs.Lines
import InfixCalc.Proofs.Locations
/-!
# What the commands print

The output of an evaluation piece by piece, and what becomes of a command whose expression cannot be
parsed.

Main statements:

* `Report.printed_eq_unlines`: a report is printed line by line;
* `CommandLine.stdout_evaluate`: what an evaluation prints, with all dumps;
* `CommandLine.parsing_eq`: the stages of parsing, one after the other, come to what parsing comes to;
* `CommandLine.evaluate_eq`, `CommandLine.check_eq`: the commands as functions of the parsed tree.
-/

namespace InfixCalc

/-! ## Reports -/

namespace Report

variable (style : Text.Style) (report : Report)

/-- The lines of a report: the notations, the tree, and the value or why there is none. -/
def lines : List String :=
  ["Prefix notation: " ++ report.prefixText,
    "Postfix notation: " ++ report.postfixText,
    "Infix notation: " ++ report.infixText,
    "AST structure (formatted):",
    report.outline,
    match report.result with
    | .ok v => style.greenHeading "Result" ++ ": " ++ v.text
    | .error e => style.redHeading "Evaluation error" ++ ": " ++ e.message]

theorem printed_eq_unlines : report.printed style = Text.unlines (report.lines style) := by
  have htitle : "AST structure (formatted):\n" = "AST structure (formatted):" ++ "\n" := by decide
  unfold printed resultLine lines
  cases report.result <;>
    simp only [-String.reduceAppend, htitle, Text.unlines_cons, Text.unlines_nil, String.append_assoc,
      String.append_empty]

/-- The lines that a report begins with. -/
theorem exists_printed_eq :
    ∃ rest, report.printed style = "Prefix notation: " ++ report.prefixText ++ "\n" ++
      ("Postfix notation: " ++ report.postfixText ++ "\n") ++ rest := by
  refine ⟨Text.unlines ((report.lines style).drop 2), ?_⟩
  simp only [-String.reduceAppend, printed_eq_unlines, lines, List.drop_succ_cons, List.drop_zero,
    Text.unlines_cons, String.append_assoc]

end Report

/-! ## Outputs -/

@[simp] theorem Output.stdout_append (a b : Output) : (a ++ b).stdout = a.stdout ++ b.stdout := rfl

@[simp] theorem Output.stderr_append (a b : Output) : (a ++ b).stderr = a.stderr ++ b.stderr := rfl

theorem Output.append_assoc (a b c : Output) : a ++ b ++ c = a ++ (b ++ c) := by
  show mk _ _ = mk _ _
  simp [String.append_assoc]

@[simp] theorem Output.append_empty (a : Output) : a ++ empty = a := by
  show mk _ _ = a
  simp [empty]

@[simp] theorem Output.empty_append (a : Output) : empty ++ a = a := by
  show mk _ _ = a
  simp [empty]

theorem Output.print_append_print (a b : String) : print a ++ print b = print (a ++ b) := rfl

namespace CommandLine

/-! ## Steps -/

section
variable {α β : Type} (style : Text.Style) (file : SourceFile) (name : String)

@[simp] theorem andThen_say (output : Output) (f : Unit → Step β) :
    (Step.say output).andThen f = ⟨output ++ (f ()).output, (f ()).result?⟩ := rfl

@[simp] theorem andThen_stage_ok (a : α) (f : α → Step β) :
    (stage style file name (.ok a)).andThen f = f a := by
  show Step.mk (.empty ++ (f a).output) (f a).result? = f a
  rw [Output.empty_append]

theorem lastWord_append (front ending : String) : lastWord style (front ++ ending) =
    .complain (style.redHeading "error" ++ ": " ++ front ++ (ending ++ "\n")) := by
  simp [lastWord, String.append_assoc]

/-- A stage that fails draws the error and tells its own name. -/
@[simp] theorem andThen_stage_error (e : ParseError) (f : α → Step β) :
    (stage style file name (.error e)).andThen f =
      .fail (.complain (e.draw style file ++
        (style.redHeading "error" ++ ": " ++ name ++ " failed\n"))) := by
  show Step.fail (.complain (e.draw style file) ++ lastWord style (name ++ " failed")) = _
  rw [lastWord_append]
  rfl

end

/-! ## Evaluations -/

@[simp] theorem output_printReport (style : Text.Style) (report : Report) :
    (printReport style report).output = .print (report.printed style) := by
  unfold printReport
  split <;> rfl

theorem stdout_postfixDump (style : Text.Style) (words : List String) :
    (postfixDump style true words).stdout =
      style.blueHeading "=== Postfix ===" ++ "\n" ++ " ".intercalate words ++ "\n\n" := by
  show style.blueHeading "=== Postfix ===" ++ "\n" ++ (" ".intercalate words ++ "\n") ++ "\n" = _
  rw [show "\n\n" = "\n" ++ "\n" by decide]
  simp only [String.append_assoc]

/-- What an evaluation prints in order: the dumps, and the report on the tree. -/
theorem stdout_evaluate {source : String} {t : Expr} (h : Expr.parse source = .ok t)
    (style : Text.Style) (dumps : Dumps) :
    (evaluate style dumps source).output.stdout =
      (tokenDump style dumps.tokens source).stdout ++
        (postfixDump style dumps.postfixWords t.postfixWords).stdout ++
        (treeDump style dumps.tree t).stdout ++ (Report.ofTree source t).printed style := by
  have hwords := Expr.ofSource_of_parse h
  have htree : Postfix.toTree t.postfixWords = .ok t := Expr.parse_eq_of_ofSource hwords ▸ h
  obtain ⟨hknown, hconvert⟩ := Postfix.ofSource_eq_ok_iff.mp hwords
  have htokens := Lexeme.tokenize_eq_ok_iff.mpr ⟨rfl, hknown⟩
  simp [evaluate, tokenStage, postfixStage, treeStage, inputFile, htokens, hconvert, htree,
    Output.print, String.append_assoc]

/-! ## Parsing by stages -/

end CommandLine

/-- The name of the stage that finds the error. -/
def ParseError.stageName : ParseError → String
  | strangeCharacter .. => "Tokenizing"
  | invalidToken .. | unmatchedParenthesis _ => "Postfix conversion"
  | missingOperand | unknownWord _ | incomplete | tooDeep _ => "Parsing"

theorem Lexeme.stageName_of_tokenize {source : String} {e : ParseError}
    (h : tokenize source = .error e) : e.stageName = "Tokenizing" := by
  obtain ⟨c, span, -, rfl⟩ := exists_of_tokenize_error h
  rfl

theorem Postfix.stageName_of_ofLexemes {lexemes : List Lexeme} {e : ParseError}
    (h : ofLexemes lexemes = .error e) (hknown : ∀ lexeme ∈ lexemes, ∀ c, lexeme.token ≠ .unknown c) :
    e.stageName = "Postfix conversion" := by
  obtain ⟨lexeme, hmem, hblames⟩ := ofLexemes_error h hknown
  cases hblames with
  | strange => exact absurd rfl (hknown _ hmem _)
  | number | opening | closing => rfl

theorem Postfix.stageName_of_toTree {words : List String} {e : ParseError}
    (h : toTree words = .error e) : e.stageName = "Parsing" := by
  cases toTree_error h <;> rfl

namespace CommandLine

/-- What a command complains about if it cannot parse its expression: the drawing of the error, and the
stage that has failed. -/
def complaint (style : Text.Style) (expression : String) (e : ParseError) : Output :=
  .complain (e.draw style ⟨"<input>", expression⟩ ++
    (style.redHeading "error" ++ ": " ++ e.stageName ++ " failed\n"))

section
variable {α : Type} (style : Text.Style) (source : String) (next : Expr → Step α)

/-- Goes through the stages of parsing and on with the tree. -/
def parsing : Step α :=
  (tokenStage style (inputFile source)).andThen fun lexemes =>
  (postfixStage style (inputFile source) lexemes).andThen fun words =>
  (treeStage style (inputFile source) words).andThen next

theorem parsing_eq : parsing style source next =
    match Expr.parse source with
    | .ok t => next t
    | .error e => .fail (complaint style source e) := by
  have hsource : (inputFile source).source = source := rfl
  rw [parsing, tokenStage, hsource, Expr.parse, Postfix.ofSource]
  rcases htokens : Lexeme.tokenize source with e | lexemes
  · rw [andThen_stage_error, ← Lexeme.stageName_of_tokenize htokens]
    rfl
  obtain ⟨rfl, hknown⟩ := Lexeme.tokenize_eq_ok_iff.mp htokens
  rw [andThen_stage_ok, postfixStage, Except.bind]
  rcases hwords : Postfix.ofLexemes (Lexeme.scan source) with e | words
  · have hstage := Postfix.stageName_of_ofLexemes hwords fun lexeme hmem c htoken =>
      hknown c (List.mem_map.mpr ⟨lexeme, hmem, htoken⟩)
    rw [andThen_stage_error, ← hstage]
    rfl
  rw [andThen_stage_ok, treeStage, Except.bind]
  rcases htree : Postfix.toTree words with e | t
  · rw [andThen_stage_error, ← Postfix.stageName_of_toTree htree]
    rfl
  · exact andThen_stage_ok ..

end

/-- An evaluation without dumps prints the report on the tree. -/
theorem evaluate_eq (style : Text.Style) (source : String) :
    evaluate style ⟨false, false, false⟩ source =
      match Expr.parse source with
      | .ok t => printReport style (.ofTree source t)
      | .error e => .fail (complaint style source e) := by
  have hdump : ∀ {α : Type} (next : Unit → Step α), (Step.say .empty).andThen next = next () := by
    intro α next
    rw [andThen_say, Output.empty_append]
  rw [← parsing_eq, parsing, evaluate]
  simp only [tokenDump, postfixDump, treeDump, titled, Bool.false_eq_true, if_false, hdump]

/-! ## Checks -/

theorem check_eq (style : Text.Style) (source : String) : check style source =
    match Expr.parse source with
    | .ok _ => .say (.print (style.greenHeading "success" ++ ": No errors found\n"))
    | .error e => .fail (complaint style source e) :=
  parsing_eq style source fun _ => _

theorem perform_check_of_parse_error {source : String} {e : ParseError}
    (h : Expr.parse source = .error e) (env : Environment) (verbose : Bool) :
    ∃ output, perform env (.command (.check source) verbose) = .finished 1 output := by
  refine ⟨complaint env.style source e, ?_⟩
  rw [perform, execute, check_eq, h]
  rfl

end CommandLine

end InfixCalc
