import InfixCalc.Number
/-!
# Rounding to the nearest number

The binary64 number nearest to a quotient of natural numbers. The quotient is measured in units of
`2 ^ -1074` and cut to the 53 leading bits; a tie goes to the even neighbour. In terms of ranks
there is only one case: a significand that rounds up to the next power of two, a subnormal number
that becomes normal and a sum that overflows are all just the next rank.
-/

namespace InfixCalc

/-- The integer nearest to `num / den`; of two equally near the even one. -/
def roundHalfEven (num den : Nat) : Nat :=
  let q := num / den
  let r := num % den
  if 2 * r < den then q else if den < 2 * r then q + 1 else q + q % 2

namespace Number

/-- One in units, the least positive numbers. -/
def unitsPerOne : Nat := 2 ^ 1074

/-- The significand of a quotient is counted in steps of `2 ^ shiftOf` units: of the whole part in
units, all but the 53 leading bits are dropped. -/
def shiftOf (units : Nat) : Nat := units.log2 - 52

/-- The rank next to `num / den`, not bounded above. -/
def nearestRank (num den : Nat) : Nat :=
  let scaled := num * unitsPerOne
  let shift := shiftOf (scaled / den)
  shift * 2 ^ 52 + roundHalfEven scaled (den * 2 ^ shift)

/-- The number with the given sign nearest to `num / den`, for a positive `den`. A quotient that
rounds beyond the largest magnitude is infinite. -/
def nearest (negative : Bool) (num den : Nat) : Number :=
  let rank := nearestRank num den
  if h : rank < 2047 * 2 ^ 52 then finite negative ⟨rank, h⟩ else infinite negative

end Number

end InfixCalc
