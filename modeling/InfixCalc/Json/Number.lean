import InfixCalc.Json.Reading
import InfixCalc.Number.Arithmetic
import InfixCalc.Number.Reading
import InfixCalc.Number.Text
/-!
# Numbers in JSON documents

A number is written with the fewest digits that read back; from `1e16` up and below `1e-5` in
exponent notation. It is read by a single rounded multiplication or division of its leading digits,
so that a reading may differ from the nearest number in the last place.
-/

namespace InfixCalc

/-! ## Writing -/

namespace Decimal

/-- The exponent of the leading digit. -/
def leadExponent (d : Decimal) : Int := d.exponent + (Nat.toDigits 10 d.digits).length - 1

/-- Exponent notation, with one digit in front of the point. -/
def exponential (d : Decimal) : List Char :=
  let power := d.leadExponent
  let sign := if power < 0 then '-' else '+'
  let tail := 'e' :: sign :: Nat.toDigits 10 power.natAbs
  match Nat.toDigits 10 d.digits with
  | [] => tail
  | lead :: rest => lead :: fractionSpelling rest ++ tail

/-- Positional notation with at least one digit behind the point. -/
def withPoint (d : Decimal) : List Char :=
  let spelling := d.positional
  if spelling.contains '.' then spelling else spelling ++ ['.', '0']

end Decimal

namespace Number

/-- A finite number as it is written in a document. -/
def jsonSpelling (negative : Bool) (a : Magnitude) : List Char :=
  let d := a.shortest .even
  let spelling :=
    if a.rank = 0 ∨ (-5 ≤ d.leadExponent ∧ d.leadExponent < 16) then d.withPoint else d.exponential
  if negative then '-' :: spelling else spelling

/-- A document has no numbers that are not finite. -/
def toJson : Number → Json
  | finite negative a => .number (jsonSpelling negative a)
  | _ => .null

/-! ## Reading -/

/-- Appends digits to a significand as long as it fits into 64 bits. What is left over begins with the
first digit that does not fit. -/
def takeDigits (significand : Nat) : List Char → Nat × List Char
  | [] => (significand, [])
  | c :: cs =>
    let next := 10 * significand + (c.toNat - '0'.toNat)
    if next < 2 ^ 64 then takeDigits next cs else (significand, c :: cs)

/-- The number nearest to a power of ten. -/
def powerOfTen (exponent : Nat) : Number := nearest false (10 ^ exponent) 1

/-- Scales by a power of ten with one operation, or with one for each 308 places if the number is
small. A number that becomes too large is refused. -/
def scaleByTen? (v : Number) (exponent : Int) : Option Number :=
  if v.isZero then some v
  else if 0 ≤ exponent then
    if exponent ≤ 308 then
      let w := v * powerOfTen exponent.toNat
      if w.isFinite then some w else none
    else none
  else if -308 ≤ exponent then some (v / powerOfTen (-exponent).toNat)
  else scaleByTen? (v / powerOfTen 308) (exponent + 308)
termination_by (-exponent).toNat
decreasing_by omega

/-- The value of a spelling of the form that `Json.number?` takes. -/
def ofJsonSpelling? (spelling : List Char) : Option Number :=
  let (sign, cs) := Json.sign spelling
  let whole := cs.takeWhile Char.isDigit
  let (fraction, rest) := Decimal.fractionDigits (cs.dropWhile Char.isDigit)
  match Decimal.exponentPart? rest with
  | none => none
  | some exponent =>
    let (significand, skipped) := takeDigits 0 whole
    let (significand, unread) := takeDigits significand fraction
    let places : Int := skipped.length - (fraction.length - unread.length : Nat)
    (scaleByTen? (nearest false significand 1) (places + exponent)).map fun v =>
      if sign = [] then v else v.negate

end Number

end InfixCalc
