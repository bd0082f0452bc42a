import InfixCalc.Diagnostic
import InfixCalc.Text.Blank
import InfixCalc.Text.Style
import InfixCalc.Text.Width
/-!
# Drawing a diagnostic

The message, the place of the label, and the labelled line of the source with carets below it. A
label that ends at the start of the next line is drawn as a bracket over both lines.
-/

namespace InfixCalc

/-- A source text and the name it is shown under. -/
structure SourceFile where
  name : String
  source : String

namespace Drawing

open Text (Style)

/-! ## Columns -/

/-- A tab reaches to the next multiple of this. -/
def tabWidth : Nat := 4

/-- A character of a source line, its first byte in the line, and the columns it takes. -/
structure Cell where
  char : Char
  byte : Nat
  width : Nat

/-- The cells of a line from a given byte and column on. -/
def cellsFrom (byte column : Nat) : List Char → List Cell
  | [] => []
  | c :: cs =>
    let width := if c = '\t' then tabWidth - column % tabWidth else Text.width c
    ⟨c, byte, width⟩ :: cellsFrom (byte + c.utf8Size) (column + width) cs

def cells (line : List Char) : List Cell := cellsFrom 0 0 line

/-- A tab is shown as blanks. -/
def Cell.shown (cell : Cell) : List Char :=
  if cell.char = '\t' then List.replicate cell.width ' ' else [cell.char]

def showCells (cells : List Cell) : String := String.ofList (cells.flatMap Cell.shown)

def widthOf : List Cell → Nat
  | [] => 0
  | cell :: cells => cell.width + widthOf cells

def repeated (c : Char) (n : Nat) : String := String.ofList (List.replicate n c)

/-! ## The place of a label -/

/-- Cuts a text at a byte offset. -/
def splitAtByte (offset : Nat) : List Char → List Char × List Char
  | [] => ([], [])
  | c :: cs =>
    if offset < c.utf8Size then ([], c :: cs)
    else
      let (before, behind) := splitAtByte (offset - c.utf8Size) cs
      (c :: before, behind)

/-- The line that begins at the front of a text, without the characters that end it. -/
def firstLine (cs : List Char) : List Char :=
  Text.dropTrailing (fun c => c == '\n' || c == '\r' || c == '\x00') (cs.takeWhile (· ≠ '\n'))

/-- What is behind the first newline. -/
def behindNewline (cs : List Char) : List Char := (cs.dropWhile (· ≠ '\n')).tail

/-- Where a label begins. -/
structure Place where
  /-- The number of the line, counted from one. -/
  line : Nat
  /-- What stands before the label in its line. -/
  before : List Char
  /-- The text from the label on. -/
  behind : List Char

def place (source : String) (offset : Nat) : Place :=
  let (before, behind) := splitAtByte offset source.toList
  { line := before.count '\n' + 1
    before := (before.reverse.takeWhile (· ≠ '\n')).reverse
    behind := behind }

/-! ## Lines of the drawing -/

/-- The margin to the left of the border, as wide as the largest line number. -/
def margin (gutter : Nat) : String := repeated ' ' gutter ++ " "

/-- A line number, set flush right in the margin, with the border. -/
def numbered (style : Style) (gutter line : Nat) : String :=
  let digits := toString line
  style.frame (repeated ' ' (gutter - digits.length) ++ digits) ++ " " ++ style.frame "│"

def bordered (style : Style) (gutter : Nat) : String := margin gutter ++ style.frame "│"

/-- The message of a diagnostic. -/
def header (style : Style) (message : String) : String :=
  if style.colored then
    Style.reset ++ Style.select "1" ++ Style.select "38;5;9" ++ "error" ++ Style.reset ++
      Style.select "1" ++ ": " ++ message ++ Style.reset ++ "\n"
  else "error: " ++ message ++ "\n"

/-- The name of the file and the line and column of the label. -/
def locus (style : Style) (gutter : Nat) (name : String) (place : Place) : String :=
  margin gutter ++ style.frame "┌─" ++ " " ++ name ++ ":" ++ toString place.line ++ ":" ++
    toString (place.before.length + 1) ++ "\n"

/-- A label within one line. It has at least one caret if it lies at the end of the line, where no
character is shown. -/
def singleLine (style : Style) (gutter : Nat) (place : Place) (length : Nat) (text : String) :
    String :=
  let start := Span.byteSize place.before
  let stop := max (start + length) (start + 1)
  let row := cells (firstLine (place.before ++ place.behind))
  let before := row.filter (·.byte < start)
  let labelled := row.filter fun cell => start ≤ cell.byte && cell.byte < stop
  let after := row.filter (stop ≤ ·.byte)
  let carets := if labelled.isEmpty then 1 else widthOf labelled
  let shown := if labelled.isEmpty then "" else style.mark (showCells labelled)
  bordered style gutter ++ "\n" ++
    numbered style gutter place.line ++ " " ++ showCells before ++ shown ++ showCells after ++ "\n" ++
    bordered style gutter ++ " " ++ repeated ' ' (widthOf before) ++
      style.mark (repeated '^' carets) ++ " " ++ style.mark text ++ "\n"

/-- A label that ends at the start of the next line. If only blanks stand before it, the bracket begins
beside the line and not below it. -/
def twoLine (style : Style) (gutter : Nat) (place : Place) (text : String) : String :=
  let row := cells (firstLine (place.before ++ place.behind))
  let next := cells (firstLine (behindNewline place.behind))
  let top :=
    if place.before.all Text.isWhiteSpace then
      numbered style gutter place.line ++ " " ++ style.mark "╭" ++ " " ++ showCells row ++ "\n"
    else
      numbered style gutter place.line ++ "   " ++ showCells row ++ "\n" ++
        bordered style gutter ++ " " ++ style.mark "╭" ++
          style.mark (repeated '─' (widthOf row) ++ "^") ++ "\n"
  bordered style gutter ++ "  \n" ++ top ++
    numbered style gutter (place.line + 1) ++ " " ++ style.mark "│" ++ " " ++ showCells next ++ "\n" ++
    bordered style gutter ++ " " ++ style.mark "╰" ++ style.mark ("^ " ++ text) ++ "\n"

/-- A label reaches over a newline. -/
def reachesNextLine (place : Place) (length : Nat) : Bool :=
  (splitAtByte length place.behind).1.contains '\n'

def label (style : Style) (file : SourceFile) (label : Label) : String :=
  let place := place file.source label.span.start
  let length := label.span.stop - label.span.start
  if reachesNextLine place length then
    let gutter := (toString (place.line + 1)).length
    locus style gutter file.name place ++ twoLine style gutter place label.text
  else
    let gutter := (toString place.line).length
    locus style gutter file.name place ++ singleLine style gutter place length label.text

def note (style : Style) (text : String) : String :=
  " " ++ style.frame "=" ++ " " ++ text ++ "\n"

end Drawing

/-- The whole drawing, closed by an empty line. -/
def Diagnostic.draw (style : Text.Style) (file : SourceFile) (diagnostic : Diagnostic) : String :=
  Drawing.header style diagnostic.message ++
    (match diagnostic.label? with
      | some label => Drawing.label style file label
      | none => "") ++
    String.join (diagnostic.notes.map (Drawing.note style)) ++ "\n"

end InfixCalc
