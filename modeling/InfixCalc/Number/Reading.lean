import InfixCalc.Number.Decimal
/-!
# Reading a number

The texts that are accepted as a number: an optional sign, then either digits with an optional
point among them and an optional exponent, or one of the words `inf`, `infinity` and `nan` in any
mixture of cases. Blanks and digit separators are not part of a number.
-/

namespace InfixCalc

namespace Decimal

/-- A power of ten: an optional sign and at least one digit. -/
def exponent? : List Char → Option Int
  | '+' :: cs => magnitude? cs
  | '-' :: cs => (magnitude? cs).map (- ·)
  | cs => magnitude? cs
where
  magnitude? (cs : List Char) : Option Int :=
    if cs ≠ [] ∧ cs.all Char.isDigit then some (Nat.ofDigitChars 10 cs 0) else none

/-- What may follow the digits: nothing, or an `e` and a power of ten. -/
def exponentPart? : List Char → Option Int
  | [] => some 0
  | c :: cs => if c = 'e' ∨ c = 'E' then exponent? cs else none

/-- Takes off a point and the digits behind it. -/
def fractionDigits : List Char → List Char × List Char
  | '.' :: cs => (cs.takeWhile Char.isDigit, cs.dropWhile Char.isDigit)
  | cs => ([], cs)

/-- A decimal without sign. There is at least one digit, before or behind the point. -/
def ofChars? (cs : List Char) : Option Decimal :=
  let whole := cs.takeWhile Char.isDigit
  let (fraction, rest) := fractionDigits (cs.dropWhile Char.isDigit)
  if whole ++ fraction = [] then none
  else (exponentPart? rest).map fun e =>
    ⟨Nat.ofDigitChars 10 (whole ++ fraction) 0, e - fraction.length⟩

end Decimal

namespace Number

/-- The words for the values that are not finite. -/
def ofWord? (negative : Bool) (cs : List Char) : Option Number :=
  let word := String.ofList (cs.map Char.toLower)
  if word = "nan" then some (nan false)
  else if word = "inf" ∨ word = "infinity" then some (infinite negative)
  else none

def ofUnsigned? (negative : Bool) (cs : List Char) : Option Number :=
  match Decimal.ofChars? cs with
  | some d => some (d.toNumber negative)
  | none => ofWord? negative cs

def ofChars? : List Char → Option Number
  | '-' :: cs => ofUnsigned? true cs
  | '+' :: cs => ofUnsigned? false cs
  | cs => ofUnsigned? false cs

/-- The number nearest to what a text denotes, or nothing if the text does not denote a number. -/
def ofText? (text : String) : Option Number := ofChars? text.toList

end Number

end InfixCalc
