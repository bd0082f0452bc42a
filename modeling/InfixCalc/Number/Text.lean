import InfixCalc.Number.Shortest
/-!
# The text of a number

A number is written with the fewest digits that read back as it, in positional notation at any size.
A whole number has no point, and not-a-number has no sign.
-/

namespace InfixCalc

namespace Number

def signText (negative : Bool) : String := if negative then "-" else ""

/-- The canonical text of a number. -/
def text : Number → String
  | nan _ => "NaN"
  | infinite s => signText s ++ "inf"
  | finite s a => signText s ++ String.ofList (a.shortest .up).positional

instance : ToString Number := ⟨text⟩

end Number

end InfixCalc
