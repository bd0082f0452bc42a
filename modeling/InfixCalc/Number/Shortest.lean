import InfixCalc.Number.Decimal
/-!
# The shortest decimal of a number

Every number is the nearest one to a whole interval of reals. Of the decimals in that interval those
with the fewest digits are considered, and of them the one nearest to the number is taken. The grids
of the multiples of `10 ^ k` are tried for falling `k`; on each only the two neighbours of the number
matter.

Reals are measured in units of `2 ^ -1076`, a quarter of the least positive number, in which the ends
of the interval are integers.
-/

namespace InfixCalc

/-- Which of two equally near decimals is taken. -/
inductive DecimalTie where
  | up
  | even
deriving DecidableEq, Repr

namespace Magnitude

/-- The magnitude in quarters of the least positive number. -/
def centre (a : Magnitude) : Nat := 4 * a.quanta

/-- The lower end of the interval that rounds to the magnitude. Below a power of two the numbers lie
twice as dense as above it. -/
def lower (a : Magnitude) : Nat :=
  a.centre - if a.significand = 2 ^ 52 ∧ a.shift ≠ 0 then 2 ^ a.shift else 2 * 2 ^ a.shift

/-- The upper end of the interval that rounds to the magnitude. -/
def upper (a : Magnitude) : Nat := a.centre + 2 * 2 ^ a.shift

/-- A tie of rounding goes to the even significand, so that the ends belong to its interval. -/
def endsIncluded (a : Magnitude) : Bool := a.significand % 2 == 0

/-- Steps of `10 ^ exponent` are `gridStep exponent / gridScale exponent` units. -/
def gridStep (exponent : Int) : Nat := 4 * Number.unitsPerOne * 10 ^ exponent.toNat

def gridScale (exponent : Int) : Nat := 10 ^ (-exponent).toNat

/-- The decimal rounds to the magnitude. -/
def covers (a : Magnitude) (d : Decimal) : Bool :=
  let point := d.digits * gridStep d.exponent
  let low := a.lower * gridScale d.exponent
  let high := a.upper * gridScale d.exponent
  if a.endsIncluded then low ≤ point && point ≤ high else low < point && point < high

/-- The nearer one of two neighbours on a grid. The lower one is `remainder` below the point, and the
neighbours are a `step` apart. -/
def nearer (tie : DecimalTie) (remainder step : Nat) (below above : Decimal) : Decimal :=
  if 2 * remainder < step then below
  else if step < 2 * remainder then above
  else match tie with
    | .up => above
    | .even => if below.digits % 2 = 0 then below else above

/-- The neighbour that satisfies a condition, and the `better` one if both do. -/
def select? (p : Decimal → Bool) (better below above : Decimal) : Option Decimal :=
  match p below, p above with
  | true, true => some better
  | true, false => some below
  | false, true => some above
  | false, false => none

/-- The better one of the two neighbours of the magnitude on the grid of `10 ^ exponent`, if one of
them rounds to it. -/
def onGrid? (tie : DecimalTie) (a : Magnitude) (exponent : Int) : Option Decimal :=
  let centre := a.centre * gridScale exponent
  let step := gridStep exponent
  let below : Decimal := ⟨centre / step, exponent⟩
  let above : Decimal := ⟨centre / step + 1, exponent⟩
  select? a.covers (nearer tie (centre % step) step below above) below above

/-- A power of ten not below the magnitude, from its binary logarithm. -/
def topExponent (a : Magnitude) : Int := ((a.quanta.log2 : Int) - 1073) * 30103 / 100000 + 1

/-- The digits in full, for want of shorter ones. -/
def exactDecimal (a : Magnitude) : Decimal := ⟨a.quanta * 5 ^ 1074, -1074⟩

/-- The shortest decimal that rounds to the magnitude, and of these the nearest. -/
def shortest (tie : DecimalTie) (a : Magnitude) : Decimal :=
  if a.rank = 0 then ⟨0, 0⟩
  else ((List.range 21).findSome? fun (i : Nat) => a.onGrid? tie (a.topExponent - i)).getD a.exactDecimal

end Magnitude

end InfixCalc
