import InfixCalc.Batch
/-!
# What a run results in

A run gives the report on the tree of its source, or the error of parsing it. Logging and announcing
the stages change neither, and the same holds of the lines of a batch.

Main statements: `value_run`, `Expr.valueOfSource_eq` and `Batch.value_evaluateLogged`.
-/

namespace InfixCalc

namespace Logged

variable {α β ε : Type}

@[simp] theorem value_announce (wanted : Bool) (message : String) (x : Logged α) :
    (announce wanted message x).value = x.value := rfl

@[simp] theorem value_map (f : α → β) (x : Logged α) : (x.map f).value = f x.value := rfl

@[simp] theorem value_ofSuccess (result : Except ε α) (message : α → String) :
    (ofSuccess result message).value = result := by
  cases result <;> rfl

@[simp] theorem value_andThen (x : Logged (Except ε α)) (f : α → Logged (Except ε β)) :
    (x.andThen f).value = x.value.bind fun a => (f a).value := by
  unfold andThen
  split <;> rename_i h <;> rw [h] <;> rfl

@[simp] theorem value_forEach (f : α → Logged β) (as : List α) :
    (forEach f as).value = as.map fun a => (f a).value := by
  induction as with
  | nil => rfl
  | cons a as ih => rw [forEach, List.map_cons, ← ih]

end Logged

/-! ## Runs -/

@[simp] theorem Report.value_ofTreeLogged (expression : String) (tree : Expr) :
    (ofTreeLogged expression tree).value = ofTree expression tree := by
  rw [ofTreeLogged, Logged.value_map, tree.value_evaluateLogged, ofTree]

/-- **A run results in the report on the tree of its source**, whether or not it is verbose. -/
theorem value_run (verbose : Bool) (source : String) :
    (run verbose source).value = (Expr.parse source).map (Report.ofTree source) := by
  simp only [run, Lexeme.tokenizeLogged, Postfix.ofLexemesLogged, Postfix.toTreeLogged,
    Logged.value_andThen, Logged.value_announce, Logged.value_ofSuccess, Logged.value_map,
    Report.value_ofTreeLogged, Expr.parse, Postfix.ofSource]
  rcases Lexeme.tokenize source with e | lexemes
  · rfl
  simp only [Except.bind]
  rcases Postfix.ofLexemes lexemes with e | words
  · rfl
  dsimp only
  rcases Postfix.toTree words with e | tree <;> rfl

/-! ## Batches -/

namespace Expr

theorem valueOfSource_eq_bind (source : String) : valueOfSource source =
    ((parse source).mapError .parse).bind fun t => t.evaluate.mapError .eval := by
  rw [valueOfSource]
  rcases parse source with e | t
  · rfl
  · show _ = t.evaluate.mapError Failure.eval
    dsimp only
    cases t.evaluate <;> rfl

theorem value_parseLogged (source : String) : (parseLogged source).value = parse source := by
  simp only [parseLogged, Lexeme.tokenizeLogged, Postfix.ofLexemesLogged, Postfix.toTreeLogged,
    Logged.value_andThen, Logged.value_ofSuccess]
  rfl

theorem value_valueOfSourceLogged (source : String) :
    (valueOfSourceLogged source).value = valueOfSource source := by
  rw [valueOfSourceLogged, Logged.value_andThen, Logged.value_map, value_parseLogged,
    valueOfSource_eq_bind]
  simp only [Logged.value_map, value_evaluateLogged]

end Expr

theorem Batch.value_evaluateLogged (source : String) :
    (evaluateLogged source).value = evaluate source := by
  simp only [evaluateLogged, Logged.value_forEach, evaluateLineLogged,
    Expr.value_valueOfSourceLogged]
  rfl

end InfixCalc
