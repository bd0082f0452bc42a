import InfixCalc.Proofs.LineNumbers
import InfixCalc.Proofs.Runs
/-!
# Batches line by line

A batch has one outcome for each line that is not blank, and the outcome is that of the line alone. So the
outcomes of two texts with a newline between them are those of the one and then those of the other further
down, and it makes no difference how the lines are ended.

Main statement: `evaluate_line_by_line`.
-/

namespace InfixCalc

namespace Batch

/-! ## The lines that count -/

theorem mem_numberedLines_iff {source line : String} {number : Nat} :
    (line, number) ∈ numberedLines source ↔
      Text.IsLine source number line ∧ Text.trim line ≠ "" := by
  rw [numberedLines, List.mem_filter, Text.mem_zipIdx_lines_iff, Bool.not_eq_true', Ne,
    ← Text.isBlank_iff_trim_eq, Bool.not_eq_true]

theorem pairwise_numberedLines (source : String) :
    (numberedLines source).Pairwise (·.2 < ·.2) := by
  refine List.Pairwise.filter _ ?_
  rw [← List.pairwise_map, List.zipIdx_map_snd]
  exact List.pairwise_lt_range'

/-- Lines further down have larger numbers, and the same of them are blank. -/
theorem filter_zipIdx_add (rows : List String) (first count : Nat) (p : String → Bool) :
    (rows.zipIdx (first + count)).filter (fun row => p row.1) =
      ((rows.zipIdx first).filter fun row => p row.1).map fun row => (row.1, row.2 + count) := by
  rw [Nat.add_comm, ← List.map_snd_add_zipIdx_eq_zipIdx, List.filter_map]
  rfl

theorem numberedLines_append_newline (a b : String) (h : a.toList.getLast? ≠ some '\r') :
    numberedLines (a ++ "\n" ++ b) = numberedLines a ++
      (numberedLines b).map fun row => (row.1, row.2 + (a.toList.count '\n' + 1)) := by
  obtain ⟨blank, hblank, hlines, hlength⟩ := Text.lines_append_newline a b h
  -- The empty line that may stand between the two is blank.
  have hnothing (number : Nat) :
      (blank.zipIdx number).filter (fun row => !Text.isBlank row.1) = [] := by
    rcases hblank with rfl | rfl <;> rfl
  rw [numberedLines, numberedLines, numberedLines, hlines, List.zipIdx_append, hlength,
    List.filter_append, List.zipIdx_append, List.filter_append, hnothing, List.append_nil]
  congr 1
  exact filter_zipIdx_add (Text.lines b) 1 _ fun line => !Text.isBlank line

/-! ## Outcomes -/

theorem pairwise_evaluate (source : String) : (evaluate source).Pairwise (·.line < ·.line) :=
  List.pairwise_map.mpr (pairwise_numberedLines source)

theorem mem_evaluate_iff {source : String} {entry : LineOutcome} :
    entry ∈ evaluate source ↔ ∃ line, Text.IsLine source entry.line line ∧ Text.trim line ≠ "" ∧
      entry = ⟨entry.line, line, Expr.valueOfSource line⟩ := by
  rw [evaluate, List.mem_map]
  constructor
  · rintro ⟨⟨line, number⟩, hmem, rfl⟩
    obtain ⟨hline, htrim⟩ := mem_numberedLines_iff.mp hmem
    exact ⟨line, hline, htrim, rfl⟩
  · rintro ⟨line, hline, htrim, hentry⟩
    exact ⟨(line, entry.line), mem_numberedLines_iff.mpr ⟨hline, htrim⟩, hentry.symm⟩

theorem evaluate_append_newline (a b : String) (h : a.toList.getLast? ≠ some '\r') :
    evaluate (a ++ "\n" ++ b) = evaluate a ++
      (evaluate b).map fun entry => { entry with line := entry.line + (a.toList.count '\n' + 1) } := by
  rw [evaluate, numberedLines_append_newline a b h, List.map_append, List.map_map, evaluate, evaluate,
    List.map_map]
  rfl

theorem evaluate_pairNewlines (source : String) (h : '\r' ∉ source.toList) :
    evaluate (Text.pairNewlines source) = evaluate source := by
  rw [evaluate, numberedLines, Text.lines_pairNewlines source h, evaluate, numberedLines]

/-- **A batch is evaluated line by line.** The outcomes stand in the order of their line numbers, with
exactly one for each line that is not blank; it has the line as it is written, and what parsing and then
evaluating the line by itself comes to. The outcomes of a text behind another one and a newline only move
down by the newlines in front of them. Carriage returns in front of the newlines change nothing. -/
theorem evaluate_line_by_line (source : String) :
    (evaluate source).Pairwise (·.line < ·.line) ∧
    (∀ entry, entry ∈ evaluate source ↔
      ∃ line, Text.IsLine source entry.line line ∧ Text.trim line ≠ "" ∧
        entry = ⟨entry.line, line,
          ((Expr.parse line).mapError .parse).bind fun tree => tree.evaluate.mapError .eval⟩) ∧
    (source.toList.getLast? ≠ some '\r' → ∀ more : String,
      evaluate (source ++ "\n" ++ more) = evaluate source ++ (evaluate more).map fun entry =>
        { entry with line := entry.line + (source.toList.count '\n' + 1) }) ∧
    ('\r' ∉ source.toList → evaluate (Text.pairNewlines source) = evaluate source) := by
  refine ⟨pairwise_evaluate source, fun entry => ?_, fun h more => ?_, evaluate_pairNewlines source⟩
  · simp only [mem_evaluate_iff, Expr.valueOfSource_eq_bind]
  · exact evaluate_append_newline source more h

/-- A blank line is counted, a line that fails disturbs no other one, and the blanks in a line stay. -/
theorem evaluate_line_by_line_blank :
    let source := "1 / 0\n\u3000\n"
    evaluate (source ++ "\n" ++ " 2 ") =
        [⟨1, "1 / 0", .error (.eval .divisionByZero)⟩,
          ⟨4, " 2 ", .ok (.ofBits 0x4000000000000000)⟩] ∧
      evaluate (Text.pairNewlines source) = [⟨1, "1 / 0", .error (.eval .divisionByZero)⟩] := by
  intro source
  have hfault : Expr.valueOfSource "1 / 0" = .error (.eval .divisionByZero) := by decide +kernel
  have htwo : Expr.valueOfSource " 2 " = .ok (.ofBits 0x4000000000000000) := by decide +kernel
  have hsource : numberedLines source = [("1 / 0", 1)] := by decide +kernel
  have hmore : numberedLines " 2 " = [(" 2 ", 1)] := by decide +kernel
  obtain ⟨-, -, happend, hpair⟩ := evaluate_line_by_line source
  have hcount : source.toList.count '\n' = 2 := by decide
  rw [happend (by decide) " 2 ", hpair (by decide), evaluate, evaluate, hsource, hmore]
  simp [evaluateLine, hfault, htwo, hcount]

end Batch

end InfixCalc
