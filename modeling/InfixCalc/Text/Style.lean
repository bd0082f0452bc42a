/-!
# Terminal styles

Escape sequences that colour a text, or leave it as it is if colours are off. There are two habits:
headings are set off by one sequence before and a reset behind them; the parts of a drawing are also
preceded by a reset.
-/

namespace InfixCalc

namespace Text

/-- Whether colours are wanted. -/
structure Style where
  colored : Bool
deriving DecidableEq, Repr

namespace Style

/-- The sequence that selects a graphic rendition. -/
def select (rendition : String) : String := "\x1b[" ++ rendition ++ "m"

def reset : String := select "0"

def heading (style : Style) (rendition text : String) : String :=
  if style.colored then select rendition ++ text ++ reset else text

def blueHeading (style : Style) (text : String) : String := style.heading "1;34" text

def greenHeading (style : Style) (text : String) : String := style.heading "1;32" text

def redHeading (style : Style) (text : String) : String := style.heading "1;31" text

def red (style : Style) (text : String) : String := style.heading "31" text

/-- A border or a line number of a drawing. -/
def frame (style : Style) (text : String) : String :=
  if style.colored then reset ++ select "34" ++ text ++ reset else text

/-- A part of a drawing that points at the error. -/
def mark (style : Style) (text : String) : String :=
  if style.colored then reset ++ select "31" ++ text ++ reset else text

end Style

end Text

end InfixCalc
