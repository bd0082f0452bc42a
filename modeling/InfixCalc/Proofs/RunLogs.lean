import InfixCalc.Proofs.Runs
import Mathlib.Data.List.Forall2
/-!
# What a run logs

The log of a run is that of its stages, one behind the other. A stage of parsing has one record if it
completes, and it is the last stage if it does not. The evaluation has one record for each operator of the
tree, operands in front of their operator, up to the first one that fails. A verbose run has one more record
in front of each stage, and is otherwise the same.

Main statements: `Expr.evaluationLogs_records` and `run_logs`.
-/

namespace InfixCalc

/-! ## Records -/

namespace LogRecord

def tokenized (source : String) (lexemes : List Lexeme) : LogRecord :=
  ⟨.debug, "tokenized " ++ Text.quoted source ++ " into " ++ toString lexemes.length ++ " tokens: [" ++
    ", ".intercalate (lexemes.map (·.token.text)) ++ "]"⟩

def converted (words : List String) : LogRecord := ⟨.debug, "postfix: " ++ " ".intercalate words⟩

def built (tree : Expr) : LogRecord :=
  ⟨.debug, "built tree with " ++ toString tree.size ++ " nodes: " ++ tree.infixText⟩

/-- An operation with its operands and its result. -/
def computed (op : Operator) (a b v : Number) : LogRecord :=
  ⟨.trace, a.text ++ " " ++ op.text ++ " " ++ b.text ++ " = " ++ v.text⟩

/-- An operation that has no result. -/
def failed (op : Operator) (a b : Number) (e : EvalError) : LogRecord :=
  ⟨.debug, "evaluation failed at `" ++ (a.text ++ " " ++ op.text ++ " " ++ b.text) ++ "`: " ++ e.message⟩

end LogRecord

/-! ## The log of an evaluation -/

/-- An operator of a tree with the trees of its operands. -/
structure Operation where
  op : Operator
  left : Expr
  right : Expr
deriving DecidableEq, Repr

/-- The operators of a tree, each behind those of its operands. -/
def Expr.operations : Expr → List Operation
  | number _ => []
  | binary op l r => l.operations ++ r.operations ++ [⟨op, l, r⟩]

namespace Operation

/-- The operands have these values, and this comes of them. -/
structure Computes (o : Operation) (a b : Number) (result : Except EvalError Number) : Prop where
  left : o.left.evaluate = .ok a
  right : o.right.evaluate = .ok b
  apply : o.op.apply a b = result

/-- The record of an operation with a result. -/
inductive Traced (o : Operation) : LogRecord → Prop
  | intro {a b v} : o.Computes a b (.ok v) → Traced o (.computed o.op a b v)

theorem level_ne_info_of_traced {operations : List Operation} {records : List LogRecord}
    (h : List.Forall₂ Traced operations records) : ∀ record ∈ records, record.level ≠ .info := by
  induction h with
  | nil => nofun
  | cons htraced _ ih =>
    rw [List.forall_mem_cons]
    cases htraced
    exact ⟨nofun, ih⟩

end Operation

/-- The records of an evaluation. The operations have results up to the first one without. -/
inductive EvaluationLogs (t : Expr) : List LogRecord → Prop
  | success {v records} : t.evaluate = .ok v → List.Forall₂ Operation.Traced t.operations records →
      EvaluationLogs t records
  | failure {before op l r after records a b} : t.evaluate = .error .divisionByZero →
      t.operations = before ++ ⟨op, l, r⟩ :: after → List.Forall₂ Operation.Traced before records →
      Operation.Computes ⟨op, l, r⟩ a b (.error .divisionByZero) →
      EvaluationLogs t (records ++ [.failed op a b .divisionByZero])

/-! ## The log of a run -/

/-- What is logged of a stage: an announcement, if it is wanted, and the records of the stage itself. -/
structure StageLog where
  announcement : String
  records : List LogRecord
deriving DecidableEq, Repr

namespace StageLog

def entries (verbose : Bool) (stage : StageLog) : List LogRecord :=
  (if verbose then [⟨.info, stage.announcement⟩] else []) ++ stage.records

def tokenizing (source : String) (records : List LogRecord) : StageLog :=
  ⟨"step: tokenizing " ++ Text.quoted source, records⟩

def converting (lexemes : List Lexeme) (records : List LogRecord) : StageLog :=
  ⟨"step: converting " ++ toString lexemes.length ++ " tokens to postfix", records⟩

def building (words : List String) (records : List LogRecord) : StageLog :=
  ⟨"step: building tree from `" ++ " ".intercalate words ++ "`", records⟩

def evaluating (tree : Expr) (records : List LogRecord) : StageLog :=
  ⟨"step: evaluating " ++ tree.infixText, records⟩

end StageLog

/-- How far a run comes, what it results in, and the stages that it starts with their records. -/
inductive RunLogs (source : String) : Except ParseError Report → List StageLog → Prop
  | unscanned {e} : Lexeme.tokenize source = .error e →
      RunLogs source (.error e) [.tokenizing source []]
  | unconverted {lexemes e} : Lexeme.tokenize source = .ok lexemes →
      Postfix.ofLexemes lexemes = .error e →
      RunLogs source (.error e)
        [.tokenizing source [.tokenized source lexemes], .converting lexemes []]
  | unbuilt {lexemes words e} : Lexeme.tokenize source = .ok lexemes →
      Postfix.ofLexemes lexemes = .ok words → Postfix.toTree words = .error e →
      RunLogs source (.error e)
        [.tokenizing source [.tokenized source lexemes], .converting lexemes [.converted words],
          .building words []]
  | evaluated {lexemes words tree records} : Lexeme.tokenize source = .ok lexemes →
      Postfix.ofLexemes lexemes = .ok words → Postfix.toTree words = .ok tree →
      EvaluationLogs tree records →
      RunLogs source (.ok (Report.ofTree source tree))
        [.tokenizing source [.tokenized source lexemes], .converting lexemes [.converted words],
          .building words [.built tree], .evaluating tree records]

/-! ## Records of computations -/

namespace Logged

variable {α β ε : Type}

theorem andThen_of_ok {x : Logged (Except ε α)} {a : α} (h : x.value = .ok a)
    (f : α → Logged (Except ε β)) : (x.andThen f).records = x.records ++ (f a).records := by
  rw [andThen, h]

theorem andThen_of_error {x : Logged (Except ε α)} {e : ε} (h : x.value = .error e)
    (f : α → Logged (Except ε β)) : (x.andThen f).records = x.records := by
  rw [andThen, h]

end Logged

/-! ## Evaluation -/

namespace EvaluationLogs

variable {op : Operator} {l r : Expr} {records records' : List LogRecord} {a b : Number}

/-- A left operand that fails is all there is to log. -/
theorem left (hl : EvaluationLogs l records) {e : EvalError} (h : l.evaluate = .error e) :
    EvaluationLogs (.binary op l r) records := by
  cases hl with
  | success hv _ => cases hv.symm.trans h
  | @failure before op' l' r' after _ _ _ he hoperations htraced hfails =>
    have hvalue : (Expr.binary op l r).evaluate = .error .divisionByZero := by rw [Expr.evaluate, he]
    have hoperations' : (Expr.binary op l r).operations =
        before ++ ⟨op', l', r'⟩ :: (after ++ (r.operations ++ [⟨op, l, r⟩])) := by
      rw [Expr.operations, hoperations, List.append_assoc, List.append_assoc, List.cons_append]
    exact .failure hvalue hoperations' htraced hfails

/-- A right operand that fails is logged behind the left one. -/
theorem right (hl : EvaluationLogs l records) (ha : l.evaluate = .ok a)
    (hr : EvaluationLogs r records') {e : EvalError} (h : r.evaluate = .error e) :
    EvaluationLogs (.binary op l r) (records ++ records') := by
  cases hl with
  | failure he _ _ _ => cases he.symm.trans ha
  | success _ hltraced =>
    cases hr with
    | success hv _ => cases hv.symm.trans h
    | @failure before op' l' r' after _ _ _ he hoperations htraced hfails =>
      have hvalue : (Expr.binary op l r).evaluate = .error .divisionByZero := by
        rw [Expr.evaluate, ha, he]
      have hoperations' : (Expr.binary op l r).operations =
          (l.operations ++ before) ++ ⟨op', l', r'⟩ :: (after ++ [⟨op, l, r⟩]) := by
        rw [Expr.operations, hoperations, List.append_assoc, List.append_assoc, List.append_assoc,
          List.cons_append]
      rw [← List.append_assoc]
      exact .failure hvalue hoperations' (List.rel_append hltraced htraced) hfails

theorem forall₂_traced {t : Expr} (h : EvaluationLogs t records) (ha : t.evaluate = .ok a) :
    List.Forall₂ Operation.Traced t.operations records := by
  cases h with
  | success _ htraced => exact htraced
  | failure he _ _ _ => cases he.symm.trans ha

/-- Operands with values are logged, and then the operation on them. -/
theorem operation (hl : EvaluationLogs l records) (ha : l.evaluate = .ok a)
    (hr : EvaluationLogs r records') (hb : r.evaluate = .ok b) :
    EvaluationLogs (.binary op l r) (records ++ (records' ++ (Expr.applyLogged op a b).records)) := by
  have hoperands := List.rel_append (hl.forall₂_traced ha) (hr.forall₂_traced hb)
  have hvalue : (Expr.binary op l r).evaluate = op.apply a b := by rw [Expr.evaluate, ha, hb]
  rw [← List.append_assoc, Expr.applyLogged]
  cases happly : op.apply a b with
  | ok v =>
    refine .success (hvalue.trans happly) (List.rel_append hoperands (.cons ?_ .nil))
    exact .intro ⟨ha, hb, happly⟩
  | error e =>
    cases e
    exact .failure (hvalue.trans happly) rfl hoperands ⟨ha, hb, happly⟩

theorem level_ne_info {t : Expr} (h : EvaluationLogs t records) :
    ∀ record ∈ records, record.level ≠ .info := by
  cases h with
  | success _ htraced => exact Operation.level_ne_info_of_traced htraced
  | failure _ _ htraced _ =>
    rw [List.forall_mem_append, List.forall_mem_singleton]
    exact ⟨Operation.level_ne_info_of_traced htraced, nofun⟩

end EvaluationLogs

/-- **An evaluation logs the operations of the tree in order**, up to the first division by zero. -/
theorem Expr.evaluationLogs_records (t : Expr) : EvaluationLogs t t.evaluateLogged.records := by
  induction t with
  | number v => exact .success rfl .nil
  | binary op l r ihl ihr =>
    rw [evaluateLogged]
    rcases hl : l.evaluate with e | a
    · rw [Logged.andThen_of_error (l.value_evaluateLogged.trans hl)]
      exact ihl.left hl
    rw [Logged.andThen_of_ok (l.value_evaluateLogged.trans hl)]
    rcases hr : r.evaluate with e | b
    · rw [Logged.andThen_of_error (r.value_evaluateLogged.trans hr)]
      exact ihl.right hl ihr hr
    · rw [Logged.andThen_of_ok (r.value_evaluateLogged.trans hr)]
      exact ihl.operation hl ihr hr

/-! ## Runs -/

/-- An announced computation has the log of a stage. -/
theorem StageLog.announce_eq {α : Type} (verbose : Bool) (announcement : String) (x : Logged α) :
    Logged.announce verbose announcement x =
      ⟨StageLog.entries verbose ⟨announcement, x.records⟩, x.value⟩ := rfl

/-- The log of each run of a source is the log of the same stages. -/
theorem exists_runLogs (source : String) : ∃ result stages, RunLogs source result stages ∧
    ∀ verbose, run verbose source = ⟨stages.flatMap (·.entries verbose), result⟩ := by
  simp only [run, StageLog.announce_eq, Lexeme.tokenizeLogged, Postfix.ofLexemesLogged,
    Postfix.toTreeLogged]
  rcases htokenize : Lexeme.tokenize source with e | lexemes
  · refine ⟨_, _, .unscanned htokenize, fun verbose => ?_⟩
    rw [List.flatMap_singleton]
    rfl
  rcases hconvert : Postfix.ofLexemes lexemes with e | words
  · refine ⟨_, _, .unconverted htokenize hconvert, fun verbose => ?_⟩
    rw [List.flatMap_cons, List.flatMap_singleton]
    simp only [Logged.ofSuccess, Logged.andThen, hconvert]
    rfl
  rcases hbuild : Postfix.toTree words with e | tree
  · refine ⟨_, _, .unbuilt htokenize hconvert hbuild, fun verbose => ?_⟩
    rw [List.flatMap_cons, List.flatMap_cons, List.flatMap_singleton]
    simp only [Logged.ofSuccess, Logged.andThen, hconvert, hbuild]
    rfl
  · refine ⟨_, _, .evaluated htokenize hconvert hbuild tree.evaluationLogs_records, fun verbose => ?_⟩
    rw [List.flatMap_cons, List.flatMap_cons, List.flatMap_cons, List.flatMap_singleton]
    simp only [Logged.ofSuccess, Logged.andThen, hconvert, hbuild]
    rw [Logged.map, Report.value_ofTreeLogged]
    rfl

theorem RunLogs.level_ne_info {source : String} {result : Except ParseError Report}
    {stages : List StageLog} (h : RunLogs source result stages) :
    ∀ stage ∈ stages, ∀ record ∈ stage.records, record.level ≠ .info := by
  have hdebug (message : String) :
      ∀ record ∈ [(⟨.debug, message⟩ : LogRecord)], record.level ≠ .info :=
    List.forall_mem_singleton.mpr nofun
  cases h with
  | unscanned _ => exact List.forall_mem_singleton.mpr nofun
  | unconverted _ _ =>
    rw [List.forall_mem_cons, List.forall_mem_singleton]
    exact ⟨hdebug _, nofun⟩
  | unbuilt _ _ _ =>
    rw [List.forall_mem_cons, List.forall_mem_cons, List.forall_mem_singleton]
    exact ⟨hdebug _, hdebug _, nofun⟩
  | evaluated _ _ _ hevaluation =>
    rw [List.forall_mem_cons, List.forall_mem_cons, List.forall_mem_cons, List.forall_mem_singleton]
    exact ⟨hdebug _, hdebug _, hdebug _, hevaluation.level_ne_info⟩

theorem StageLog.filter_entries {stage : StageLog}
    (h : ∀ record ∈ stage.records, record.level ≠ .info) :
    (stage.entries true).filter (·.level ≠ .info) = stage.entries false := by
  have hkept : stage.records.filter (·.level ≠ .info) = stage.records :=
    List.filter_eq_self.mpr fun record hrecord => by simpa using h record hrecord
  rw [entries, if_pos rfl, List.filter_append, hkept]
  rfl

theorem StageLog.filter_flatMap_entries {stages : List StageLog}
    (h : ∀ stage ∈ stages, ∀ record ∈ stage.records, record.level ≠ .info) :
    (stages.flatMap (·.entries true)).filter (·.level ≠ .info) = stages.flatMap (·.entries false) := by
  rw [List.filter_flatMap]
  exact List.flatMap_congr fun stage hstage => filter_entries (h stage hstage)

/-- **What a run logs.** The log is that of the stages that the run starts. None of their own records is an
announcement: a verbose run has one announcement in front of each stage, and is otherwise the same, result
included. -/
theorem run_logs (source : String) :
    ∃ result stages, RunLogs source result stages ∧
      (∀ stage ∈ stages, ∀ record ∈ stage.records, record.level ≠ .info) ∧
      run false source = ⟨stages.flatMap (·.records), result⟩ ∧
      run true source =
        ⟨stages.flatMap fun stage => ⟨.info, stage.announcement⟩ :: stage.records, result⟩ ∧
      (run true source).records.filter (·.level ≠ .info) = (run false source).records := by
  obtain ⟨result, stages, hlogs, hrun⟩ := exists_runLogs source
  have hlevels := hlogs.level_ne_info
  refine ⟨result, stages, hlogs, hlevels, hrun false, hrun true, ?_⟩
  rw [hrun true, hrun false]
  exact StageLog.filter_flatMap_entries hlevels

/-- The quotient fails, and the sum is not reached. -/
example : (run true "1 /\t(2 - 2) + 3").records =
    [⟨.info, "step: tokenizing \"1 /\\t(2 - 2) + 3\""⟩,
      ⟨.debug, "tokenized \"1 /\\t(2 - 2) + 3\" into 9 tokens: [1, /, (, 2, -, 2, ), +, 3]"⟩,
      ⟨.info, "step: converting 9 tokens to postfix"⟩,
      ⟨.debug, "postfix: 1 2 2 - / 3 +"⟩,
      ⟨.info, "step: building tree from `1 2 2 - / 3 +`"⟩,
      ⟨.debug, "built tree with 7 nodes: ((1 / (2 - 2)) + 3)"⟩,
      ⟨.info, "step: evaluating ((1 / (2 - 2)) + 3)"⟩,
      ⟨.trace, "2 - 2 = 0"⟩,
      ⟨.debug, "evaluation failed at `1 / 0`: Division by zero"⟩] := by
  decide +kernel

end InfixCalc
