import InfixCalc.Expr.Evaluation
import InfixCalc.Expr.Rendering
import InfixCalc.Proofs.Results
/-!
# Evaluation on a stack

The nodes of a tree, operands in front of their operator, are a program for a machine with a stack of
numbers. The machine finds the value of the tree or stops at a division by zero, and it stops exactly if
somewhere in the tree a quotient has operands with values and a divisor that is zero.

Main statement: `evaluate_on_stack`.
-/

namespace InfixCalc

/-- A node of a tree, as the machine takes it. -/
inductive Instruction where
  | push (value : Number)
  | apply (op : Operator)
deriving DecidableEq, Repr

/-- Why the machine stops before the end of its program. -/
inductive Trap where
  | eval (error : EvalError)
  /-- An operator does not find two numbers. -/
  | underflow
deriving DecidableEq, Repr

namespace Instruction

/-- The word of the node in a postfix list. -/
def word : Instruction → String
  | push v => v.text
  | apply op => op.text

/-- An operator takes its right operand off the stack, and then its left one. -/
def execute (stack : List Number) : Instruction → Except Trap (List Number)
  | push v => .ok (v :: stack)
  | apply op => match stack with
    | right :: left :: rest => match op.apply left right with
      | .ok v => .ok (v :: rest)
      | .error e => .error (.eval e)
    | _ => .error .underflow

end Instruction

namespace Expr

/-- The nodes of a tree, each behind those of its operands. -/
def program : Expr → List Instruction
  | number v => [.push v]
  | binary op l r => l.program ++ r.program ++ [.apply op]

/-- The tree is a node of the other one, with everything below it. -/
inductive Occurs (s : Expr) : Expr → Prop
  | here : Occurs s s
  | left {op l r} : Occurs s l → Occurs s (.binary op l r)
  | right {op l r} : Occurs s r → Occurs s (.binary op l r)

/-! ## The machine -/

theorem map_word_program (t : Expr) : t.program.map Instruction.word = t.postfixWords := by
  induction t with
  | number v => rfl
  | binary op l r ihl ihr =>
    rw [program, List.map_append, List.map_append, ihl, ihr]
    rfl

/-- The program of a tree puts its value on top of any stack. -/
theorem foldlM_program (t : Expr) (stack : List Number) :
    t.program.foldlM Instruction.execute stack =
      match t.evaluate with
      | .ok v => .ok (v :: stack)
      | .error e => .error (.eval e) := by
  induction t generalizing stack with
  | number v => rfl
  | binary op l r ihl ihr =>
    rw [program, List.foldlM_append, List.foldlM_append, ihl, evaluate]
    rcases l.evaluate with e | a
    · rfl
    show (r.program.foldlM Instruction.execute (a :: stack)).bind _ = _
    rw [ihr]
    rcases r.evaluate with e | b
    · rfl
    show (Instruction.execute (b :: a :: stack) (.apply op)).bind .ok = _
    simp only [Instruction.execute]
    rcases op.apply a b with e | v <;> rfl

/-! ## Divisions by zero -/

end Expr

theorem Number.numEq_zero (b : Number) : b.numEq .zero = b.isZero := by
  match b with
  | .nan _ | .infinite _ => rfl
  | .finite s a =>
    have heq : (finite s a).numEq .zero = ((finite s a).isZero || finite s a == .zero) := by
      show ((finite s a).isZero && true || _) = _
      rw [Bool.and_true]
    cases hzero : (finite s a).isZero with
    | true => rw [heq, hzero, Bool.true_or]
    | false =>
      have hne : finite s a ≠ .zero := by
        intro h
        rw [h] at hzero
        cases hzero
      rw [heq, hzero, Bool.false_or, beq_eq_false_iff_ne]
      exact hne

theorem Operator.apply_eq_error_iff {op : Operator} {a b : Number} {e : EvalError} :
    op.apply a b = .error e ↔ op = .divide ∧ b.numEq .zero = true := by
  rw [b.numEq_zero]
  cases op with
  | divide =>
    cases e
    cases hzero : b.isZero <;> simp [apply, hzero]
  | _ => simp [apply]

namespace Expr

/-- A quotient fails if its divisor is zero. -/
theorem evaluate_divide {l r : Expr} {a b : Number} (hl : l.evaluate = .ok a)
    (hr : r.evaluate = .ok b) (hzero : b.numEq .zero = true) :
    (binary .divide l r).evaluate = .error .divisionByZero := by
  rw [evaluate, hl, hr]
  exact Operator.apply_eq_error_iff.mpr ⟨rfl, hzero⟩

/-- A failure somewhere in a tree is a failure of the whole tree. -/
theorem Occurs.evaluate_eq_error {s t : Expr} {e : EvalError} (h : Occurs s t)
    (hs : s.evaluate = .error e) : ∃ e', t.evaluate = .error e' := by
  induction h with
  | here => exact ⟨e, hs⟩
  | left _ ih =>
    obtain ⟨e', hl⟩ := ih
    exact ⟨e', by rw [evaluate, hl]⟩
  | @right op l r _ ih =>
    obtain ⟨e', hr⟩ := ih
    rcases hl : l.evaluate with e'' | a
    · exact ⟨e'', by rw [evaluate, hl]⟩
    · exact ⟨e', by rw [evaluate, hl, hr]⟩

/-- A failure comes from a quotient in the tree. -/
theorem exists_occurs_of_evaluate_eq_error {t : Expr} {e : EvalError} (h : t.evaluate = .error e) :
    ∃ l r a b, Occurs (binary .divide l r) t ∧ l.evaluate = .ok a ∧ r.evaluate = .ok b ∧
      b.numEq .zero = true := by
  induction t with
  | number v => cases h
  | binary op l r ihl ihr =>
    rw [evaluate] at h
    rcases hl : l.evaluate with e' | a
    · rw [hl] at h
      obtain ⟨l', r', a, b, hoccurs, hvalues⟩ := ihl (hl.trans h)
      exact ⟨l', r', a, b, .left hoccurs, hvalues⟩
    rcases hr : r.evaluate with e' | b
    · rw [hl, hr] at h
      obtain ⟨l', r', a', b, hoccurs, hvalues⟩ := ihr (hr.trans h)
      exact ⟨l', r', a', b, .right hoccurs, hvalues⟩
    · rw [hl, hr] at h
      obtain ⟨rfl, hzero⟩ := Operator.apply_eq_error_iff.mp h
      exact ⟨l, r, a, b, .here, hl, hr, hzero⟩

end Expr

/-- **A tree is evaluated as by a machine with a stack.** The machine runs over the nodes in the order of
the postfix words and ends with the value of the tree alone on its stack, or stops with the error of the
tree. There is an error exactly if a quotient occurs in the tree, at whatever place, whose operands have
values and whose divisor is equal to zero. -/
theorem evaluate_on_stack (t : Expr) :
    t.program.map Instruction.word = t.postfixWords ∧
    t.program.foldlM Instruction.execute [] =
      (match t.evaluate with
      | .ok v => .ok [v]
      | .error e => .error (.eval e)) ∧
    ((∃ e, t.evaluate = .error e) ↔
      ∃ l r a b, Expr.Occurs (.binary .divide l r) t ∧ l.evaluate = .ok a ∧ r.evaluate = .ok b ∧
        b.numEq .zero = true) := by
  refine ⟨t.map_word_program, t.foldlM_program [], ?_, ?_⟩
  · rintro ⟨e, h⟩
    exact Expr.exists_occurs_of_evaluate_eq_error h
  · rintro ⟨l, r, a, b, hoccurs, hl, hr, hzero⟩
    exact hoccurs.evaluate_eq_error (Expr.evaluate_divide hl hr hzero)

/-- A power with exponent zero does not hide a division by minus zero. -/
example :
    let zero (negative : Bool) : Expr := .number (.finite negative .zero)
    (Expr.binary .power (.binary .divide (zero false) (zero true)) (zero false)).evaluate =
      .error .divisionByZero :=
  rfl

end InfixCalc
