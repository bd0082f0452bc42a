import InfixCalc.Number.Rounding
/-!
# Arithmetic on numbers

Each of the four operations gives the exact result rounded once. Finite operands are integers in
units of `2 ^ -1074`, so the exact results are quotients of integers. The power is the machine's.
No result is a signaling not-a-number.
-/

namespace InfixCalc

namespace Number

/-- A finite value in units of `2 ^ -1074`. -/
def signedQuanta (negative : Bool) (a : Magnitude) : Int :=
  if negative then -(a.quanta : Int) else a.quanta

/-- Opposite infinities have no sum. An exact zero sum is negative only if both operands are. -/
def add : Number → Number → Number
  | nan _, _ | _, nan _ => nan false
  | infinite s, infinite t => if s = t then infinite s else nan false
  | infinite s, finite .. => infinite s
  | finite .., infinite t => infinite t
  | finite s a, finite t b =>
    let sum := signedQuanta s a + signedQuanta t b
    if sum = 0 then finite (s && t) .zero else nearest (decide (sum < 0)) sum.natAbs unitsPerOne

def sub (a b : Number) : Number := add a b.negate

/-- An infinity times zero is undefined. -/
def mul : Number → Number → Number
  | nan _, _ | _, nan _ => nan false
  | infinite s, b => if b.isZero then nan false else infinite (s ^^ b.isNegative)
  | a, infinite t => if a.isZero then nan false else infinite (a.isNegative ^^ t)
  | finite s a, finite t b => nearest (s ^^ t) (a.quanta * b.quanta) (2 ^ 2148)

/-- A nonzero number over zero is infinite. -/
def div : Number → Number → Number
  | nan _, _ | _, nan _ => nan false
  | infinite _, infinite _ => nan false
  | infinite s, finite t _ => infinite (s ^^ t)
  | finite s _, infinite t => finite (s ^^ t) .zero
  | finite s a, finite t b =>
    if b.quanta = 0 then
      if a.quanta = 0 then nan false else infinite (s ^^ t)
    else nearest (s ^^ t) a.quanta b.quanta

/-- The machine's power function. A power with exponent zero or base one is one even if the other
operand is a quiet not-a-number, but not if it is a signaling one. -/
def pow : Number → Number → Number
  | nan true, _ | _, nan true => nan false
  | a, b =>
    ofBits ((Float.ofBits a.toBits.toUInt64).pow (Float.ofBits b.toBits.toUInt64)).toBits.toNat

instance : Add Number := ⟨add⟩
instance : Sub Number := ⟨sub⟩
instance : Mul Number := ⟨mul⟩
instance : Div Number := ⟨div⟩
instance : Pow Number Number := ⟨pow⟩

end Number

end InfixCalc
