/-!
# Numbers

The values an expression computes with: the binary64 numbers. Of not-a-number only the two kinds are
told apart, quiet and signaling.

A finite number is a sign and a magnitude. The magnitudes are counted from zero upwards: the one of
*rank* `r` is the `r`-th binary64 number above zero, so that neighbours differ by one in rank and
the order of the magnitudes is the order of their ranks. The rank is also the bit pattern without
the sign bit.

Main statement: `Number.ofBits_toBits`, the bit pattern determines the number.
-/

namespace InfixCalc

/-- A power of natural numbers is that of the core library, whatever else a module imports. -/
@[default_instance 20000]
instance (priority := high) corePower : Pow Nat Nat := instPowNat

/-- A finite binary64 magnitude, given by its place in the increasing list of all of them. -/
structure Magnitude where
  rank : Nat
  rank_lt : rank < 2047 * 2 ^ 52
deriving DecidableEq, Repr

namespace Magnitude

@[ext] theorem ext {a b : Magnitude} (h : a.rank = b.rank) : a = b := by
  cases a; cases b; cases h; rfl

def zero : Magnitude := ⟨0, by decide⟩

/-- The significand is counted in steps of `2 ^ shift` units. -/
def shift (a : Magnitude) : Nat := a.rank / 2 ^ 52 - 1

/-- The significand, below `2 ^ 53`; below `2 ^ 52` only when `shift` is zero. -/
def significand (a : Magnitude) : Nat := a.rank - a.shift * 2 ^ 52

/-- The magnitude as a multiple of `2 ^ -1074`, the least positive number. -/
def quanta (a : Magnitude) : Nat := a.significand * 2 ^ a.shift

end Magnitude

/-- A binary64 value. Sign and payload of not-a-number are not kept, so `=` on numbers is equality of
bit patterns with the not-a-numbers of one kind identified. -/
inductive Number where
  /-- Not-a-number. No operation and no text gives a signaling one: only a bit pattern does. -/
  | nan (signaling : Bool)
  | infinite (negative : Bool)
  | finite (negative : Bool) (magnitude : Magnitude)
deriving DecidableEq, Repr

namespace Number

instance : Inhabited Number := ⟨finite false .zero⟩

def zero : Number := finite false .zero

def isNaN : Number → Bool
  | nan _ => true
  | _ => false

def isFinite : Number → Bool
  | finite _ _ => true
  | _ => false

/-- Both zeros are zero. -/
def isZero : Number → Bool
  | finite _ a => a.rank == 0
  | _ => false

def isNegative : Number → Bool
  | nan _ => false
  | infinite s | finite s _ => s

def negate : Number → Number
  | nan signaling => nan signaling
  | infinite s => infinite !s
  | finite s a => finite (!s) a

/-- Numerical equality: not-a-number differs from itself, and the two zeros are equal. -/
def numEq : Number → Number → Bool
  | nan _, _ | _, nan _ => false
  | a, b => (a.isZero && b.isZero) || a == b

/-! ## Bit patterns -/

def signBit (negative : Bool) : Nat := if negative then 2 ^ 63 else 0

/-- The bit pattern. For not-a-number it is positive and has one bit of its significand set: the
highest, which makes it quiet, or the lowest. -/
def toBits : Number → Nat
  | nan signaling => 2047 * 2 ^ 52 + if signaling then 1 else 2 ^ 51
  | infinite s => signBit s + 2047 * 2 ^ 52
  | finite s a => signBit s + a.rank

/-- The number with a given bit pattern; bits above the lowest 64 are ignored. -/
def ofBits (bits : Nat) : Number :=
  let negative := bits / 2 ^ 63 % 2 == 1
  let rank := bits % 2 ^ 63
  if h : rank < 2047 * 2 ^ 52 then finite negative ⟨rank, h⟩
  else if rank = 2047 * 2 ^ 52 then infinite negative
  else nan (decide (rank < 2047 * 2 ^ 52 + 2 ^ 51))

theorem ofBits_toBits (v : Number) : ofBits v.toBits = v := by
  cases v with
  | nan signaling => cases signaling <;> decide
  | infinite s => cases s <;> decide
  | finite s a =>
    have ha := a.rank_lt
    have hmod : (signBit s + a.rank) % 2 ^ 63 = a.rank := by
      cases s <;> simp only [signBit] <;> grind
    have hdiv : ((signBit s + a.rank) / 2 ^ 63 % 2 == 1) = s := by
      cases s
      · have hbit : (signBit false + a.rank) / 2 ^ 63 % 2 = 0 := by simp only [signBit]; grind
        rw [hbit]
        rfl
      · have hbit : (signBit true + a.rank) / 2 ^ 63 % 2 = 1 := by simp only [signBit]; grind
        rw [hbit]
        rfl
    simp only [toBits, ofBits, hmod, hdiv, ha, dite_true]

end Number

end InfixCalc
