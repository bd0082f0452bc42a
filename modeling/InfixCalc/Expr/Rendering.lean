import InfixCalc.Expr
import InfixCalc.Number.Text
/-!
# Renderings of a tree

Four ways of writing a tree: its words with the operator first or last, the parenthesised infix text,
and an outline with one line for each node. All of them write numbers by their canonical text.
-/

namespace InfixCalc

namespace Expr

/-! ## Word lists -/

/-- One word for each node, an operator in front of its operands. -/
def prefixWords : Expr → List String
  | number v => [v.text]
  | binary op l r => op.text :: (l.prefixWords ++ r.prefixWords)

/-- One word for each node, an operator behind its operands. -/
def postfixWords : Expr → List String
  | number v => [v.text]
  | binary op l r => l.postfixWords ++ r.postfixWords ++ [op.text]

theorem prefixWords_ne_nil (t : Expr) : t.prefixWords ≠ [] := by cases t <;> simp [prefixWords]

theorem postfixWords_ne_nil (t : Expr) : t.postfixWords ≠ [] := by cases t <;> simp [postfixWords]

def prefixText (t : Expr) : String := " ".intercalate t.prefixWords

def postfixText (t : Expr) : String := " ".intercalate t.postfixWords

theorem prefixText_number (v : Number) : (number v).prefixText = v.text :=
  String.intercalate_singleton

theorem prefixText_binary (op : Operator) (l r : Expr) :
    (binary op l r).prefixText = op.text ++ " " ++ (l.prefixText ++ " " ++ r.prefixText) := by
  rw [prefixText, prefixWords, String.intercalate_cons_of_ne_nil (by simp [prefixWords_ne_nil]),
    String.intercalate_append_of_ne_nil l.prefixWords_ne_nil r.prefixWords_ne_nil]
  rfl

theorem postfixText_number (v : Number) : (number v).postfixText = v.text :=
  String.intercalate_singleton

theorem postfixText_binary (op : Operator) (l r : Expr) :
    (binary op l r).postfixText = l.postfixText ++ " " ++ r.postfixText ++ " " ++ op.text := by
  rw [postfixText, postfixWords,
    String.intercalate_append_of_ne_nil (by simp [postfixWords_ne_nil]) (List.cons_ne_nil _ _),
    String.intercalate_append_of_ne_nil l.postfixWords_ne_nil r.postfixWords_ne_nil,
    String.intercalate_singleton]
  rfl

/-! ## Infix text -/

/-- Operator between its operands, every operation in parentheses. -/
def infixText : Expr → String
  | number v => v.text
  | binary op l r => "(" ++ l.infixText ++ " " ++ op.text ++ " " ++ r.infixText ++ ")"

/-! ## Outline -/

/-- One line for each node, parents above their children; a child is indented two columns deeper than
its parent. -/
def outlineLines (indent : String) : Expr → List String
  | number v => [indent ++ "Operand: " ++ v.text]
  | binary op l r =>
    (indent ++ "Operator: " ++ op.text) ::
      (l.outlineLines (indent ++ "  ") ++ r.outlineLines (indent ++ "  "))

def outline (indent : String) (t : Expr) : String := "\n".intercalate (t.outlineLines indent)

theorem outlineLines_ne_nil (indent : String) (t : Expr) : t.outlineLines indent ≠ [] := by
  cases t <;> simp [outlineLines]

theorem outline_number (indent : String) (v : Number) :
    (number v).outline indent = indent ++ "Operand: " ++ v.text :=
  String.intercalate_singleton

theorem outline_binary (indent : String) (op : Operator) (l r : Expr) :
    (binary op l r).outline indent = indent ++ "Operator: " ++ op.text ++ "\n" ++
      (l.outline (indent ++ "  ") ++ "\n" ++ r.outline (indent ++ "  ")) := by
  rw [outline, outlineLines, String.intercalate_cons_of_ne_nil (by simp [outlineLines_ne_nil]),
    String.intercalate_append_of_ne_nil (outlineLines_ne_nil _ l) (outlineLines_ne_nil _ r)]
  rfl

end Expr

end InfixCalc
