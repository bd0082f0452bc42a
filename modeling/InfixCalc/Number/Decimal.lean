import InfixCalc.Number.Rounding
/-!
# Decimals

A decimal is a natural number of steps of a power of ten: `⟨digits, exponent⟩` stands for
`digits * 10 ^ exponent`. This module gives its positional spelling and the number nearest to it.
-/

namespace InfixCalc

structure Decimal where
  digits : Nat
  exponent : Int
deriving DecidableEq, Repr

namespace Decimal

/-! ## Spelling -/

/-- The last `width` decimal digits, with leading zeros. -/
def lastDigits (width n : Nat) : List Char :=
  let digits := Nat.toDigits 10 (n % 10 ^ width)
  List.replicate (width - digits.length) '0' ++ digits

/-- A fraction has no closing zeros. -/
def dropClosingZeros (digits : List Char) : List Char :=
  (digits.reverse.dropWhile (· == '0')).reverse

/-- A point and the digits behind it; an empty fraction is left out together with its point. -/
def fractionSpelling (digits : List Char) : List Char :=
  match dropClosingZeros digits with
  | [] => []
  | fraction => '.' :: fraction

/-- Positional notation: the whole part without superfluous leading zeros, then the fraction. -/
def positional (d : Decimal) : List Char :=
  match d.exponent with
  | .ofNat places => Nat.toDigits 10 (d.digits * 10 ^ places)
  | .negSucc k =>
    let places := k + 1
    Nat.toDigits 10 (d.digits / 10 ^ places) ++ fractionSpelling (lastDigits places d.digits)

/-! ## Value -/

/-- The number nearest to a decimal. The two first cases are beyond the largest number and below
the least one, and are told from the size of the exponent alone. -/
def toNumber (negative : Bool) (d : Decimal) : Number :=
  if d.digits = 0 then .finite negative .zero
  else if 400 < d.exponent then .infinite negative
  else if d.exponent + d.digits.log2 + 1 < -1100 then .finite negative .zero
  else .nearest negative (d.digits * 10 ^ d.exponent.toNat) (10 ^ (-d.exponent).toNat)

end Decimal

end InfixCalc
