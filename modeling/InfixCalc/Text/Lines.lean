/-!
# Lines of a text

A line ends at a newline, or at the pair of a carriage return and a newline; neither belongs to it.
Text behind the last newline is a line of its own unless it is empty.
-/

namespace InfixCalc

namespace Text

/-- Puts a character in front of the first line. -/
def consLine (c : Char) : List (List Char) → List (List Char)
  | [] => [[c]]
  | line :: lines => (c :: line) :: lines

def linesOfChars : List Char → List (List Char)
  | [] => []
  | '\n' :: cs => [] :: linesOfChars cs
  | '\r' :: '\n' :: cs => [] :: linesOfChars cs
  | c :: cs => consLine c (linesOfChars cs)

def lines (text : String) : List String := (linesOfChars text.toList).map String.ofList

/-! ## Lines of a byte stream -/

/-- Cuts at the byte of the newline. -/
def byteLines : List UInt8 → List (List UInt8)
  | [] => []
  | b :: bs =>
    if b = 10 then [] :: byteLines bs
    else match byteLines bs with
      | [] => [[b]]
      | line :: lines => (b :: line) :: lines

/-- The lines of a byte stream. A stream that is no text as a whole is cut at its newline bytes, and
the pieces that are no text come out as nothing. -/
def streamLines (bytes : ByteArray) : List (Option String) :=
  match String.fromUTF8? bytes with
  | some text => (lines text).map some
  | none => (byteLines bytes.toList).map fun line => String.fromUTF8? ⟨line.toArray⟩

end Text

end InfixCalc
