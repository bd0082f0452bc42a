import InfixCalc.Proofs.CommandLine
import InfixCalc.Workbench
/-!
# Reading back the postfix text of a tree

The words of the postfix text of a tree build that tree, whatever its numbers are, and words that build
a tree are the words of its postfix text up to the spelling of the numbers.

Main statement: `Expr.wordsOf_postfixText`; the rest is in the conversion and in the building of trees.
-/

namespace InfixCalc

/-! ## Words of a text -/

namespace Workbench

/-- A text that is a single word. -/
def IsWord (text : String) : Prop :=
  text.toList ≠ [] ∧ text.toList.any Text.isWhiteSpace = false

/-- A blank separates the words in front of it from those behind it. -/
theorem wordsOf_blank (text text' : String) :
    wordsOf (text ++ " " ++ text') = wordsOf text ++ wordsOf text' := by
  have hlist : (text ++ " " ++ text').toList = text.toList ++ ' ' :: text'.toList := by simp
  rw [wordsOf, hlist, List.splitOnP_append_cons _ _ (by decide), List.filter_append,
    List.map_append]
  rfl

theorem IsWord.wordsOf_eq {text : String} (h : IsWord text) : wordsOf text = [text] := by
  have hsplit : text.toList.splitOnP Text.isWhiteSpace = [text.toList] :=
    List.splitOnP_eq_singleton (by simpa using h.2)
  rw [wordsOf, hsplit]
  simp [h.1]

end Workbench

open Workbench

theorem Text.isWhiteSpace_of_isDigit {c : Char} (h : c.isDigit = true) :
    isWhiteSpace c = false := by
  have hrange : 48 ≤ c.toNat ∧ c.toNat ≤ 57 := by
    simpa [Char.isDigit, UInt32.le_iff_toNat_le] using h
  simp [isWhiteSpace]
  omega

theorem Operator.isWord_text (op : Operator) : IsWord op.text := by
  cases op <;> exact ⟨by decide, by decide⟩

theorem Number.isWhiteSpace_of_isTextual {c : Char} (h : isTextual c = true) :
    Text.isWhiteSpace c = false := by
  rcases Bool.or_eq_true_iff.mp h with hdigit | hother
  · exact Text.isWhiteSpace_of_isDigit hdigit
  · have hothers : ".-NaNinf".toList.all (!Text.isWhiteSpace ·) = true := by decide
    simpa using List.all_eq_true.mp hothers c (List.contains_iff_mem.mp hother)

theorem Number.isWord_text (v : Number) : IsWord v.text := by
  constructor
  · intro hnil
    have hread := v.ofText?_text
    rw [String.toList_eq_nil_iff.mp hnil] at hread
    cases hread
  · rw [List.any_eq_false]
    intro c hc
    simp [isWhiteSpace_of_isTextual (isTextual_of_mem_text hc)]

/-- **The words of the postfix text of a tree are its postfix words.** -/
theorem Expr.wordsOf_postfixText (t : Expr) : wordsOf t.postfixText = t.postfixWords := by
  induction t with
  | number v => rw [postfixText_number, v.isWord_text.wordsOf_eq, postfixWords]
  | binary op l r ihl ihr =>
    rw [postfixText_binary, wordsOf_blank, wordsOf_blank, ihl, ihr, op.isWord_text.wordsOf_eq,
      postfixWords]

/-! ## Reading back -/

/-- **Writing the postfix text and building from its words are inverse to each other.** The words of the
text build the tree, unless it is too high; words that build the tree are those of its text, with
canonical numbers. So the text of a tree that was parsed is the postfix word list of its source, and an
evaluation that prints this list prints the same line again in its report. -/
theorem postfixText_inverse (t : Expr) :
    (Postfix.toTree (wordsOf t.postfixText) =
      if t.height ≤ Postfix.maxHeight then .ok t.quiet else .error (.tooDeep Postfix.maxHeight)) ∧
    (∀ words, Postfix.toTree words = .ok t →
      wordsOf t.postfixText = words.map Postfix.canonical) ∧
    ∀ source, Expr.parse source = .ok t → ∃ words, Postfix.ofSource source = .ok words ∧
      t.postfixText = " ".intercalate words ∧
      ∀ (style : Text.Style) (dumps : CommandLine.Dumps), dumps.postfixWords = true →
        ∃ rest, (CommandLine.evaluate style dumps source).output.stdout =
          (CommandLine.tokenDump style dumps.tokens source).stdout ++
            (style.blueHeading "=== Postfix ===" ++ "\n" ++ " ".intercalate words ++ "\n\n") ++
            (CommandLine.treeDump style dumps.tree t).stdout ++
            ("Prefix notation: " ++ t.prefixText ++ "\n") ++
            ("Postfix notation: " ++ t.postfixText ++ "\n") ++ rest := by
  refine ⟨?_, fun words h => ?_, fun source h => ?_⟩
  · rw [t.wordsOf_postfixText, Postfix.toTree_postfixWords, Postfix.limited, Expr.height_quiet]
  · rw [t.wordsOf_postfixText, Postfix.postfixWords_of_toTree h]
  · refine ⟨t.postfixWords, Expr.ofSource_of_parse h, rfl, fun style dumps hwanted => ?_⟩
    obtain ⟨rest, hrest⟩ := (Report.ofTree source t).exists_printed_eq style
    refine ⟨rest, ?_⟩
    rw [CommandLine.stdout_evaluate h, hwanted, CommandLine.stdout_postfixDump, hrest]
    simp only [Report.ofTree, Report.ofResult, Expr.postfixText, String.append_assoc]

/-- Signs and words are no obstacle. -/
theorem postfixText_inverse_signs :
    let t : Expr := .binary .subtract (.number (.finite true .zero))
      (.binary .divide (.number (.infinite true)) (.number (.nan false)))
    t.postfixText = "-0 -inf NaN / -" ∧ Postfix.toTree (wordsOf "-0 -inf NaN / -") = .ok t := by
  intro t
  have htext : t.postfixText = "-0 -inf NaN / -" := by decide +kernel
  refine ⟨htext, ?_⟩
  rw [← htext]
  exact (postfixText_inverse t).1.trans (if_pos (by decide))

end InfixCalc
