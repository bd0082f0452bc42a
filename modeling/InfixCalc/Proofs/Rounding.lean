import InfixCalc.Number.Shortest
import Mathlib.Tactic.Linarith
import Mathlib.Tactic.Ring
/-!
# Rounding

What the rounding of a quotient to the nearest number depends on, and which quotients round to a given
number.

Main statements: a quotient in the interval of a magnitude rounds to it
(`Number.rankOfUnits_eq_rank`), a decimal stands for a number that depends on its value only
(`Decimal.toNumber_congr`), and a decimal that covers a magnitude stands for it
(`Decimal.toNumber_of_covers`).
-/

namespace InfixCalc

/-! ## Rounding to an integer -/

/-- An integer at most half a step away from a quotient, and even if it is just half a step away, is
what the quotient rounds to. -/
theorem roundHalfEven_eq {num den m : Nat} (hden : 0 < den)
    (hlow : 2 * m * den ≤ 2 * num + den) (hhigh : 2 * num ≤ (2 * m + 1) * den)
    (htie : m % 2 = 0 ∨ 2 * m * den < 2 * num + den ∧ 2 * num < (2 * m + 1) * den) :
    roundHalfEven num den = m := by
  have hdiv : den * (num / den) + num % den = num := Nat.div_add_mod num den
  have hmod : num % den < den := Nat.mod_lt _ hden
  unfold roundHalfEven
  generalize num / den = q at *
  generalize num % den = r at *
  subst hdiv
  have hqm : q ≤ m := by
    by_contra! h
    nlinarith [Nat.mul_le_mul_right den h]
  have hmq : m ≤ q + 1 := by
    by_contra! h
    nlinarith [Nat.mul_le_mul_right den h]
  obtain rfl | rfl : m = q ∨ m = q + 1 := by omega
  · have hr : 2 * r ≤ den := by nlinarith
    have htie : m % 2 = 0 ∨ 2 * r < den := htie.imp_right fun h => by nlinarith [h.2]
    grind
  · have hr : den ≤ 2 * r := by nlinarith
    have htie : (q + 1) % 2 = 0 ∨ den < 2 * r := htie.imp_right fun h => by nlinarith [h.1]
    grind

theorem roundHalfEven_mul_right (num den : Nat) {k : Nat} (hk : 0 < k) :
    roundHalfEven (num * k) (den * k) = roundHalfEven num den := by
  simp only [roundHalfEven, Nat.mul_div_mul_right _ _ hk, Nat.mul_mod_mul_right, ← Nat.mul_assoc,
    Nat.mul_lt_mul_right hk]

section
variable {num den num' den' : Nat} (hden : 0 < den) (hden' : 0 < den')
  (h : num * den' = num' * den)
include hden hden' h

/-- Equal quotients have the same whole part. -/
theorem div_congr : num / den = num' / den' := by
  rw [← Nat.mul_div_mul_right num den hden', h, Nat.mul_comm den,
    Nat.mul_div_mul_right num' den' hden]

/-- Equal quotients round alike. -/
theorem roundHalfEven_congr : roundHalfEven num den = roundHalfEven num' den' := by
  rw [← roundHalfEven_mul_right num den hden', h, Nat.mul_comm den,
    roundHalfEven_mul_right num' den' hden]

end

namespace Number

/-! ## The rank of a quotient of units -/

/-- The rank next to a quotient that is given in units. -/
def rankOfUnits (units den : Nat) : Nat :=
  shiftOf (units / den) * 2 ^ 52 + roundHalfEven units (den * 2 ^ shiftOf (units / den))

theorem unitsPerOne_pos : 0 < unitsPerOne := by
  unfold unitsPerOne
  exact Nat.two_pow_pos 1074

theorem two_pow_mul_unitsPerOne (k : Nat) : 2 ^ k * unitsPerOne = 2 ^ (k + 1074) := by
  rw [unitsPerOne, Nat.pow_add]

theorem nearestRank_eq (num den : Nat) :
    nearestRank num den = rankOfUnits (num * unitsPerOne) den := rfl

section
variable {num den num' den' : Nat} (hden : 0 < den) (hden' : 0 < den')
include hden hden'

theorem rankOfUnits_congr (h : num * den' = num' * den) :
    rankOfUnits num den = rankOfUnits num' den' := by
  unfold rankOfUnits
  rw [div_congr hden hden' h]
  congr 1
  apply roundHalfEven_congr (Nat.mul_pos hden (Nat.two_pow_pos _))
    (Nat.mul_pos hden' (Nat.two_pow_pos _))
  rw [← Nat.mul_assoc, ← Nat.mul_assoc, h]

/-- The nearest number depends on the quotient only. -/
theorem nearest_congr (negative : Bool) (h : num * den' = num' * den) :
    nearest negative num den = nearest negative num' den' := by
  have hrank : nearestRank num den = nearestRank num' den' := by
    rw [nearestRank_eq, nearestRank_eq]
    apply rankOfUnits_congr hden hden'
    rw [Nat.mul_right_comm, h, Nat.mul_right_comm]
  simp only [nearest, hrank]

end

theorem shiftOf_eq_zero {units : Nat} (h : units < 2 ^ 53) : shiftOf units = 0 := by
  rcases Nat.eq_zero_or_pos units with rfl | hpos
  · decide
  · have := (Nat.log2_lt (by omega)).mpr h
    simp only [shiftOf]
    omega

theorem shiftOf_eq {units s : Nat} (hlow : 2 ^ (52 + s) ≤ units) (hhigh : units < 2 ^ (53 + s)) :
    shiftOf units = s := by
  have hne : units ≠ 0 := by
    have := Nat.two_pow_pos (52 + s)
    omega
  have hlog : units.log2 = 52 + s :=
    (Nat.log2_eq_iff hne).mpr ⟨hlow, by rwa [show 52 + s + 1 = 53 + s by omega]⟩
  simp only [shiftOf]
  omega

end Number

/-! ## The interval of a magnitude -/

namespace Magnitude

theorem rank_eq (a : Magnitude) : a.rank = a.shift * 2 ^ 52 + a.significand := by
  simp only [significand, shift]
  omega

theorem significand_lt (a : Magnitude) : a.significand < 2 ^ 53 := by
  simp only [significand, shift]
  omega

theorem le_significand {a : Magnitude} (h : a.shift ≠ 0) : 2 ^ 52 ≤ a.significand := by
  simp only [significand, shift] at *
  omega

theorem significand_pos {a : Magnitude} (h : a.rank ≠ 0) : 0 < a.significand := by
  have := a.rank_eq
  by_cases hs : a.shift = 0
  · simp only [hs] at this
    omega
  · have := le_significand hs
    omega

/-- The distance from the magnitude down to the lower end of its interval. -/
def lowerGap (a : Magnitude) : Nat :=
  if a.significand = 2 ^ 52 ∧ a.shift ≠ 0 then 2 ^ a.shift else 2 * 2 ^ a.shift

theorem lower_eq (a : Magnitude) : a.lower = a.centre - a.lowerGap := rfl

theorem lowerGap_le (a : Magnitude) : a.lowerGap ≤ 2 * 2 ^ a.shift := by
  unfold lowerGap
  split <;> omega

theorem le_lowerGap (a : Magnitude) : 2 ^ a.shift ≤ a.lowerGap := by
  unfold lowerGap
  split <;> omega

theorem lowerGap_pos (a : Magnitude) : 0 < a.lowerGap :=
  Nat.lt_of_lt_of_le (Nat.two_pow_pos _) a.le_lowerGap

/-! Times a denominator, the interval is measured in steps of the significand. -/

section
variable (a : Magnitude) (den : Nat)

theorem centre_mul : a.centre * den = 4 * (a.significand * (den * 2 ^ a.shift)) := by
  simp only [centre, quanta]
  ring

theorem lower_mul :
    a.lower * den = 4 * (a.significand * (den * 2 ^ a.shift)) - a.lowerGap * den := by
  rw [lower_eq, Nat.sub_mul, centre_mul]

theorem upper_mul :
    a.upper * den = 4 * (a.significand * (den * 2 ^ a.shift)) + 2 * (den * 2 ^ a.shift) := by
  rw [upper, Nat.add_mul, centre_mul]
  ring

theorem lowerGap_mul_le : a.lowerGap * den ≤ 2 * (den * 2 ^ a.shift) := by
  calc a.lowerGap * den ≤ 2 * 2 ^ a.shift * den := Nat.mul_le_mul_right _ a.lowerGap_le
    _ = 2 * (den * 2 ^ a.shift) := by ring

variable {a} in
/-- Below a power of two the interval reaches half as far as above it. -/
theorem lowerGap_mul_of_power (hs : a.shift ≠ 0) (hm : a.significand = 2 ^ 52) :
    a.lowerGap * den = den * 2 ^ a.shift := by
  rw [lowerGap, if_pos ⟨hm, hs⟩, Nat.mul_comm]

end

/-- Only zero has no room below it. -/
theorem lowerGap_lt_centre {a : Magnitude} (h : a.rank ≠ 0) : a.lowerGap < a.centre := by
  have hgap := a.lowerGap_le
  have hstep := Nat.mul_le_mul_right (2 ^ a.shift) (significand_pos h)
  have := Nat.two_pow_pos a.shift
  simp only [centre, quanta]
  omega

theorem lower_add_lowerGap {a : Magnitude} (h : a.rank ≠ 0) : a.lower + a.lowerGap = a.centre := by
  have := lowerGap_lt_centre h
  rw [lower_eq]
  omega

theorem lower_lt_centre {a : Magnitude} (h : a.rank ≠ 0) : a.lower < a.centre := by
  have := lower_add_lowerGap h
  have := a.lowerGap_pos
  omega

theorem lower_zero : zero.lower = 0 := by decide

theorem upper_zero : zero.upper = 2 := by decide

theorem centre_lt_upper (a : Magnitude) : a.centre < a.upper := by
  have := Nat.two_pow_pos a.shift
  simp only [upper]
  omega

end Magnitude

namespace Number
open Magnitude

variable {a : Magnitude} {units den : Nat}

/-- In the binade of the magnitude a quotient is rounded on the grid of its significands. -/
theorem rankOfUnits_eq_of_shiftOf (hden : 0 < den) (hs : shiftOf (units / den) = a.shift)
    (hlow : 2 * a.significand * (den * 2 ^ a.shift) ≤ 2 * units + den * 2 ^ a.shift)
    (hhigh : 2 * units ≤ (2 * a.significand + 1) * (den * 2 ^ a.shift))
    (htie : a.significand % 2 = 0 ∨
      2 * a.significand * (den * 2 ^ a.shift) < 2 * units + den * 2 ^ a.shift ∧
        2 * units < (2 * a.significand + 1) * (den * 2 ^ a.shift)) :
    rankOfUnits units den = a.rank := by
  rw [rankOfUnits, hs, roundHalfEven_eq (Nat.mul_pos hden (Nat.two_pow_pos _)) hlow hhigh htie,
    ← a.rank_eq]

theorem shiftOf_div_eq {s : Nat} (hden : 0 < den) (hlow : s = 0 ∨ 2 ^ 52 * (den * 2 ^ s) ≤ units)
    (hhigh : units < 2 ^ 53 * (den * 2 ^ s)) : shiftOf (units / den) = s := by
  have hlt : units / den < 2 ^ (53 + s) := by
    rw [Nat.div_lt_iff_lt_mul hden, Nat.pow_add, Nat.mul_assoc, Nat.mul_comm _ den]
    exact hhigh
  rcases hlow with rfl | hlow
  · exact shiftOf_eq_zero hlt
  · refine shiftOf_eq ?_ hlt
    rw [Nat.le_div_iff_mul_le hden, Nat.pow_add, Nat.mul_assoc, Nat.mul_comm _ den]
    exact hlow

/-- Just below a power of two the grid is twice as fine, and the power of two is its next point. -/
theorem rankOfUnits_eq_of_lt_power (hden : 0 < den) (hs : a.shift ≠ 0)
    (hm : a.significand = 2 ^ 52)
    (hlow : 4 * 2 ^ 52 * (den * 2 ^ a.shift) ≤ 4 * units + den * 2 ^ a.shift)
    (hbelow : units < 2 ^ 52 * (den * 2 ^ a.shift)) : rankOfUnits units den = a.rank := by
  obtain ⟨s, hs⟩ := Nat.exists_eq_succ_of_ne_zero hs
  have hstep : den * 2 ^ a.shift = 2 * (den * 2 ^ s) := by
    rw [hs, Nat.pow_succ]
    ring
  have hpos : 0 < den * 2 ^ s := Nat.mul_pos hden (Nat.two_pow_pos _)
  rw [hstep] at hlow hbelow
  have hshift : shiftOf (units / den) = s :=
    shiftOf_div_eq hden (.inr (by omega)) (by omega)
  rw [rankOfUnits, hshift,
    roundHalfEven_eq (m := 2 ^ 53) hpos (by omega) (by omega) (.inl (by decide)), a.rank_eq, hs, hm]
  omega

/-- A quotient in the interval of a magnitude rounds to it; the ends belong to the interval if the
significand is even. -/
theorem rankOfUnits_eq_rank (hden : 0 < den)
    (hlow : a.lower * den ≤ 4 * units) (hhigh : 4 * units ≤ a.upper * den)
    (htie : a.significand % 2 = 0 ∨ a.lower * den < 4 * units ∧ 4 * units < a.upper * den) :
    rankOfUnits units den = a.rank := by
  have hgap := a.lowerGap_mul_le den
  rw [lower_mul] at hlow htie
  rw [upper_mul] at hhigh htie
  by_cases hbelow : a.shift ≠ 0 ∧ units < 2 ^ 52 * (den * 2 ^ a.shift)
  · -- Only a power of two reaches below its own binade.
    obtain ⟨hs, hbelow⟩ := hbelow
    have hm : a.significand = 2 ^ 52 := by
      have hle := le_significand hs
      by_contra hne
      have := Nat.mul_le_mul_right (den * 2 ^ a.shift) (show 2 ^ 52 + 1 ≤ a.significand by omega)
      omega
    rw [hm, lowerGap_mul_of_power den hs hm] at hlow
    exact rankOfUnits_eq_of_lt_power hden hs hm (by omega) hbelow
  · have hshift : shiftOf (units / den) = a.shift := by
      have hm := Nat.mul_le_mul_right (den * 2 ^ a.shift) (Nat.succ_le_of_lt a.significand_lt)
      rw [Nat.succ_mul] at hm
      have hpos : 0 < den * 2 ^ a.shift := Nat.mul_pos hden (Nat.two_pow_pos _)
      exact shiftOf_div_eq hden (by omega) (by omega)
    have hdouble : 2 * a.significand * (den * 2 ^ a.shift) =
        2 * (a.significand * (den * 2 ^ a.shift)) := Nat.mul_assoc ..
    have hodd : (2 * a.significand + 1) * (den * 2 ^ a.shift) =
        2 * (a.significand * (den * 2 ^ a.shift)) + den * 2 ^ a.shift := by ring
    refine rankOfUnits_eq_of_shiftOf hden hshift ?_ ?_ (htie.imp_right fun ⟨h1, h2⟩ => ⟨?_, ?_⟩)
    all_goals omega

/-- A quotient below half a unit rounds to zero. -/
theorem nearest_eq_zero {num : Nat} (negative : Bool) (hden : 0 < den)
    (h : 2 * (num * unitsPerOne) < den) : nearest negative num den = finite negative .zero := by
  have hrank : nearestRank num den = Magnitude.zero.rank := by
    apply rankOfUnits_eq_rank hden _ _ (.inl (by decide))
    · simp [lower_zero]
    · rw [upper_zero]
      omega
  simp only [nearest, hrank]
  rfl

theorem nearest_eq_infinite {num k : Nat} (negative : Bool) (hk : 2099 ≤ k)
    (h : 2 ^ k ≤ num * unitsPerOne / den) : nearest negative num den = infinite negative := by
  have hshift : 2047 ≤ shiftOf (num * unitsPerOne / den) := by
    have hpos := Nat.two_pow_pos k
    have := (Nat.le_log2 (by omega)).mpr h
    simp only [shiftOf]
    omega
  have hrank : ¬nearestRank num den < 2047 * 2 ^ 52 := by
    have := Nat.mul_le_mul_right (2 ^ 52) hshift
    simp only [nearestRank_eq, rankOfUnits]
    omega
  simp only [nearest, hrank, dite_false]

end Number

/-! ## Decimals that cover a magnitude -/

namespace Decimal
open Magnitude

/-- The numerator of a decimal as a fraction. -/
def num (d : Decimal) : Nat := d.digits * 10 ^ d.exponent.toNat

/-- The denominator of a decimal as a fraction. -/
def den (d : Decimal) : Nat := 10 ^ (-d.exponent).toNat

theorem den_pos (d : Decimal) : 0 < d.den := Nat.pow_pos (by decide)

/-- The two early cases agree with rounding: they only save the powers of ten. -/
theorem toNumber_eq_nearest (negative : Bool) (d : Decimal) :
    d.toNumber negative = .nearest negative d.num d.den := by
  unfold toNumber
  split
  · rename_i hzero
    rw [Number.nearest_eq_zero negative d.den_pos (by simp [num, hzero, d.den_pos])]
  split
  · rename_i hdigits hlarge
    have hpower : 2 ^ (3 * d.exponent.toNat) ≤ d.num := by
      calc 2 ^ (3 * d.exponent.toNat) = 8 ^ d.exponent.toNat := by rw [Nat.pow_mul]
        _ ≤ 10 ^ d.exponent.toNat := Nat.pow_le_pow_left (by decide) _
        _ ≤ d.num := Nat.le_mul_of_pos_left _ (Nat.pos_of_ne_zero hdigits)
    have hden : d.den = 1 := by
      rw [den, show (-d.exponent).toNat = 0 by omega, Nat.pow_zero]
    rw [Number.nearest_eq_infinite (k := 3 * d.exponent.toNat + 1074) negative (by omega)]
    rw [hden, Nat.div_one, ← Number.two_pow_mul_unitsPerOne]
    exact Nat.mul_le_mul_right _ hpower
  split
  · rename_i hdigits _ hsmall
    have hnum : d.num = d.digits := by
      rw [num, show d.exponent.toNat = 0 by omega, Nat.pow_zero, Nat.mul_one]
    rw [Number.nearest_eq_zero negative d.den_pos]
    rw [hnum]
    calc 2 * (d.digits * Number.unitsPerOne)
      _ < 2 * (2 ^ (d.digits.log2 + 1) * Number.unitsPerOne) := by
        have := Nat.mul_lt_mul_of_pos_right (Nat.lt_log2_self (n := d.digits))
          Number.unitsPerOne_pos
        omega
      _ = 2 ^ (d.digits.log2 + 1 + 1074 + 1) := by
        rw [Number.two_pow_mul_unitsPerOne]
        exact Nat.pow_succ'.symm
      _ ≤ 2 ^ (-d.exponent).toNat := Nat.pow_le_pow_right (by decide) (by omega)
      _ ≤ d.den := Nat.pow_le_pow_left (by decide) _
  · rfl

/-- Decimals of one value stand for one number. -/
theorem toNumber_congr {d d' : Decimal} (negative : Bool) (h : d.num * d'.den = d'.num * d.den) :
    d.toNumber negative = d'.toNumber negative := by
  rw [toNumber_eq_nearest, toNumber_eq_nearest, Number.nearest_congr d.den_pos d'.den_pos negative h]

end Decimal

namespace Magnitude

theorem covers_iff {a : Magnitude} {d : Decimal} :
    a.covers d = true ↔ a.lower * d.den ≤ 4 * (d.num * Number.unitsPerOne) ∧
      4 * (d.num * Number.unitsPerOne) ≤ a.upper * d.den ∧
      (a.significand % 2 = 0 ∨ a.lower * d.den < 4 * (d.num * Number.unitsPerOne) ∧
        4 * (d.num * Number.unitsPerOne) < a.upper * d.den) := by
  have hpoint : d.digits * gridStep d.exponent = 4 * (d.num * Number.unitsPerOne) := by
    simp only [gridStep, Decimal.num]
    ring
  have hscale : gridScale d.exponent = d.den := rfl
  simp only [covers, endsIncluded, hpoint, hscale]
  split
  · rename_i heven
    simp_all
  · rename_i hodd
    simp only [beq_iff_eq] at hodd
    simp only [Bool.and_eq_true, decide_eq_true_eq, hodd, false_or]
    omega

end Magnitude

/-- **A decimal in the interval of a magnitude stands for it.** -/
theorem Decimal.toNumber_of_covers {a : Magnitude} {d : Decimal} (negative : Bool)
    (h : a.covers d = true) : d.toNumber negative = .finite negative a := by
  obtain ⟨hlow, hhigh, htie⟩ := Magnitude.covers_iff.mp h
  have hrank : Number.nearestRank d.num d.den = a.rank :=
    Number.rankOfUnits_eq_rank d.den_pos hlow hhigh htie
  rw [Decimal.toNumber_eq_nearest]
  simp only [Number.nearest, hrank, a.rank_lt, dite_true]

end InfixCalc
