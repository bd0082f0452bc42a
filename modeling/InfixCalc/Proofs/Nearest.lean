import InfixCalc.Proofs.Rounding
import Mathlib.Algebra.Order.Field.Power
import Mathlib.Algebra.Order.Field.Rat
import Mathlib.Tactic.FieldSimp
import Mathlib.Tactic.Positivity
/-!
# Correct rounding

Every quotient lies in the interval of the magnitude that it is rounded to. These intervals end half-way
between neighbours, so that no other magnitude is nearer, and of two equally near ones the even one is
taken.

Main statements: `Decimal.toNumber_eq_finite_iff`, `Decimal.toNumber_eq_infinite_iff` and
`Decimal.toNumber_eq_iff`, a decimal stands for its value correctly rounded and for nothing else.
-/

namespace InfixCalc

/-! ## The interval of a rounded quotient -/

/-- A quotient is at most half a step away from what it rounds to, and if it is just half a step away
that is even. -/
theorem roundHalfEven_bounds (num : Nat) {den m : Nat} (hden : 0 < den)
    (hm : roundHalfEven num den = m) :
    2 * (m * den) ≤ 2 * num + den ∧ 2 * num ≤ 2 * (m * den) + den ∧
      (m % 2 = 0 ∨ 2 * (m * den) < 2 * num + den ∧ 2 * num < 2 * (m * den) + den) := by
  have hdiv : den * (num / den) + num % den = num := Nat.div_add_mod num den
  have hmod : num % den < den := Nat.mod_lt _ hden
  subst hm
  unfold roundHalfEven
  generalize num / den = q at *
  generalize num % den = r at *
  have hq : q * den = den * q := Nat.mul_comm ..
  have hq' : (q + 1) * den = den * q + den := by rw [Nat.succ_mul, hq]
  dsimp only
  split
  · omega
  split
  · omega
  · rcases Nat.mod_two_eq_zero_or_one q with hparity | hparity
    · rw [hparity, Nat.add_zero]
      omega
    · rw [hparity]
      omega

namespace Magnitude

variable {a : Magnitude} {s m : Nat}

/-- The shift and the significand are read off the rank. -/
theorem shift_eq_of_rank (hrank : a.rank = s * 2 ^ 52 + m) (hlow : s = 0 ∨ 2 ^ 52 ≤ m)
    (hhigh : m < 2 ^ 53) : a.shift = s ∧ a.significand = m := by
  have hshift : a.shift = s := by
    simp only [shift]
    omega
  refine ⟨hshift, ?_⟩
  simp only [significand, hshift]
  omega

end Magnitude

namespace Number
open Magnitude

variable {a : Magnitude} {units den s m : Nat}

/-- The significand of a quotient has at most 53 bits, and it has 53 if it is not counted in units. -/
theorem shiftOf_bounds (units : Nat) (hden : 0 < den) :
    (shiftOf (units / den) = 0 ∨ 2 ^ 52 * (den * 2 ^ shiftOf (units / den)) ≤ units) ∧
      units < 2 ^ 53 * (den * 2 ^ shiftOf (units / den)) := by
  have hassoc (k s : Nat) : 2 ^ k * (den * 2 ^ s) = 2 ^ (k + s) * den := by
    rw [Nat.pow_add]
    ring
  rw [hassoc, hassoc]
  refine ⟨Nat.eq_zero_or_pos _ |>.imp_right fun hpos => ?_, ?_⟩
  · rw [← Nat.le_div_iff_mul_le hden]
    have hlog : 52 + shiftOf (units / den) = (units / den).log2 := by
      simp only [shiftOf] at *
      omega
    rw [hlog]
    refine Nat.log2_self_le ?_
    rintro hzero
    rw [hzero] at hpos
    exact absurd hpos (by decide)
  · rw [← Nat.div_lt_iff_lt_mul hden]
    refine Nat.lt_of_lt_of_le Nat.lt_log2_self (Nat.pow_le_pow_right (by decide) ?_)
    simp only [shiftOf]
    omega

/-- A quotient of units is rounded to `m` steps of `2 ^ s` units. -/
structure RoundsTo (units den s m : Nat) : Prop where
  rank_eq : rankOfUnits units den = s * 2 ^ 52 + m
  le_units : s = 0 ∨ 2 ^ 52 * (den * 2 ^ s) ≤ units
  units_lt : units < 2 ^ 53 * (den * 2 ^ s)
  below : 2 * (m * (den * 2 ^ s)) ≤ 2 * units + den * 2 ^ s
  above : 2 * units ≤ 2 * (m * (den * 2 ^ s)) + den * 2 ^ s
  tie : m % 2 = 0 ∨ 2 * (m * (den * 2 ^ s)) < 2 * units + den * 2 ^ s ∧
    2 * units < 2 * (m * (den * 2 ^ s)) + den * 2 ^ s

theorem exists_roundsTo (units : Nat) (hden : 0 < den) : ∃ s m, RoundsTo units den s m := by
  obtain ⟨hlow, hhigh⟩ := shiftOf_bounds units hden
  obtain ⟨hbelow, habove, htie⟩ := roundHalfEven_bounds units
    (Nat.mul_pos hden (Nat.two_pow_pos (shiftOf (units / den)))) rfl
  exact ⟨_, _, rfl, hlow, hhigh, hbelow, habove, htie⟩

namespace RoundsTo

theorem le_significand (h : RoundsTo units den s m) : s = 0 ∨ 2 ^ 52 ≤ m := by
  refine h.le_units.imp_right fun hlow => ?_
  have habove := h.above
  by_contra! hlt
  have := Nat.mul_le_mul_right (den * 2 ^ s) (Nat.succ_le_of_lt hlt)
  rw [Nat.succ_mul] at this
  have := h.units_lt
  omega

theorem significand_le (h : RoundsTo units den s m) : m ≤ 2 ^ 53 := by
  have hbelow := h.below
  have hhigh := h.units_lt
  by_contra! hlt
  have := Nat.mul_le_mul_right (den * 2 ^ s) (Nat.succ_le_of_lt hlt)
  rw [Nat.succ_mul] at this
  omega

end RoundsTo

/-- A quotient lies in the interval of the magnitude that it rounds to. -/
theorem interval_of_rankOfUnits (hden : 0 < den) (h : rankOfUnits units den = a.rank) :
    a.lower * den ≤ 4 * units ∧ 4 * units ≤ a.upper * den ∧
      (a.significand % 2 = 0 ∨ a.lower * den < 4 * units ∧ 4 * units < a.upper * den) := by
  obtain ⟨s, m, hround⟩ := exists_roundsTo units hden
  have hrank := h.symm.trans hround.rank_eq
  have hbelow := hround.below
  have habove := hround.above
  have hhigh := hround.units_lt
  rw [lower_mul, upper_mul]
  rcases Nat.lt_or_eq_of_le hround.significand_le with hm_lt | hm_eq
  · obtain ⟨rfl, rfl⟩ := shift_eq_of_rank hrank hround.le_significand hm_lt
    by_cases hpower : a.significand = 2 ^ 52 ∧ a.shift ≠ 0
    · -- The interval ends where the binade begins, below which the quotient is not.
      have hlow := hround.le_units.resolve_left hpower.2
      rw [lowerGap_mul_of_power den hpower.2 hpower.1, hpower.1]
      rw [hpower.1] at habove
      exact ⟨by omega, by omega, .inl (by decide)⟩
    · have hgap : a.lowerGap * den = 2 * (den * 2 ^ a.shift) := by
        rw [lowerGap, if_neg hpower]
        ring
      rw [hgap]
      refine ⟨by omega, by omega, Nat.mod_two_eq_zero_or_one _ |>.imp_right fun hodd => ?_⟩
      obtain ⟨hbelow, habove⟩ := hround.tie.resolve_left (by omega)
      have := Nat.le_mul_of_pos_left (den * 2 ^ a.shift) (show 0 < a.significand by omega)
      exact ⟨by omega, by omega⟩
  · -- The significand has been rounded up to the next power of two.
    rw [hm_eq] at hrank hbelow
    obtain ⟨hs, hm⟩ : a.shift = s + 1 ∧ a.significand = 2 ^ 52 := by
      refine shift_eq_of_rank ?_ (.inr (Nat.le_refl _)) (by decide)
      rw [hrank]
      ring
    have hdouble : den * 2 ^ a.shift = 2 * (den * 2 ^ s) := by
      rw [hs, Nat.pow_succ]
      ring
    rw [lowerGap_mul_of_power den (by omega) hm, hm, hdouble]
    exact ⟨by omega, by omega, .inl (by decide)⟩

/-- The ranks end half-way between the largest magnitude and the power of two behind it; that point itself
is rounded up. -/
theorem le_rankOfUnits_iff (hden : 0 < den) : 2047 * 2 ^ 52 ≤ rankOfUnits units den ↔
    (2 ^ 54 - 1) * (den * 2 ^ 2045) ≤ 2 * units := by
  obtain ⟨s, m, hround⟩ := exists_roundsTo units hden
  have hlow := hround.le_units
  have hhigh := hround.units_lt
  have hm_low := hround.le_significand
  have hm_high := hround.significand_le
  have hstep : 0 < den * 2 ^ 2045 := Nat.mul_pos hden (Nat.two_pow_pos _)
  have hsteps {k l : Nat} (hkl : k < l) : 2 * (den * 2 ^ k) ≤ den * 2 ^ l := by
    calc 2 * (den * 2 ^ k) = den * 2 ^ (k + 1) := by rw [Nat.pow_succ]; ring
      _ ≤ den * 2 ^ l := Nat.mul_le_mul_left _ (Nat.pow_le_pow_right (by decide) hkl)
  rw [hround.rank_eq]
  rcases Nat.lt_trichotomy s 2045 with hs | rfl | hs
  · have := hsteps hs
    exact iff_of_false (by omega) (by omega)
  · have hbelow := hround.below
    have habove := hround.above
    constructor
    · intro hrank
      obtain rfl : m = 2 ^ 53 := by omega
      omega
    · intro hunits
      by_contra! hrank
      have hm : m = 2 ^ 53 - 1 := by
        by_contra hne
        have := Nat.mul_le_mul_right (den * 2 ^ 2045) (show m ≤ 2 ^ 53 - 2 by omega)
        omega
      -- The largest significand is odd, so that half a step above it is rounded up.
      obtain ⟨-, hstrict⟩ := hround.tie.resolve_left (by omega)
      rw [hm] at hstrict
      omega
  · have := hsteps hs
    exact iff_of_true (by omega) (by omega)

end Number

/-! ## Values -/

theorem Number.unitsPerOne_cast_pos : (0 : ℚ) < unitsPerOne := by exact_mod_cast unitsPerOne_pos

namespace Decimal

/-- The value that a decimal stands for. -/
def value (d : Decimal) : ℚ := d.digits * 10 ^ d.exponent

variable {d : Decimal} {n : Nat}

theorem value_eq_div (d : Decimal) : d.value = d.num / d.den := by
  obtain ⟨digits, places | k⟩ := d
  · simp [value, num, den]
  · simp [value, num, den, div_eq_mul_inv]

theorem value_mul_units (d : Decimal) : 4 * (d.value * Number.unitsPerOne) =
    (4 * (d.num * Number.unitsPerOne) : Nat) / (d.den : ℚ) := by
  rw [d.value_eq_div]
  push_cast
  ring

theorem den_cast_pos (d : Decimal) : (0 : ℚ) < d.den := by exact_mod_cast d.den_pos

theorem le_value_mul_iff : (n : ℚ) ≤ 4 * (d.value * Number.unitsPerOne) ↔
    n * d.den ≤ 4 * (d.num * Number.unitsPerOne) := by
  rw [value_mul_units, le_div_iff₀ d.den_cast_pos]
  exact_mod_cast Iff.rfl

theorem value_mul_le_iff : 4 * (d.value * Number.unitsPerOne) ≤ n ↔
    4 * (d.num * Number.unitsPerOne) ≤ n * d.den := by
  rw [value_mul_units, div_le_iff₀ d.den_cast_pos]
  exact_mod_cast Iff.rfl

end Decimal

namespace Magnitude

def value (a : Magnitude) : ℚ := a.quanta / Number.unitsPerOne

theorem value_mul_units (a : Magnitude) : 4 * (a.value * Number.unitsPerOne) = a.centre := by
  rw [value, centre, div_mul_cancel₀ _ Number.unitsPerOne_cast_pos.ne']
  push_cast
  rfl

/-- The value lies in the interval of the magnitude, of which the ends are a part if the significand is
even. -/
structure Attracts (a : Magnitude) (x : ℚ) : Prop where
  lower_le : a.lower ≤ 4 * (x * Number.unitsPerOne)
  le_upper : 4 * (x * Number.unitsPerOne) ≤ a.upper
  tie : a.significand % 2 = 0 ∨
    a.lower < 4 * (x * Number.unitsPerOne) ∧ 4 * (x * Number.unitsPerOne) < a.upper

variable {a b : Magnitude} {d : Decimal} {x : ℚ}

theorem covers_iff_attracts : a.covers d = true ↔ a.Attracts d.value := by
  have hlower := Decimal.le_value_mul_iff (d := d) (n := a.lower)
  have hupper := Decimal.value_mul_le_iff (d := d) (n := a.upper)
  have hlower' := lt_iff_lt_of_le_iff_le (Decimal.value_mul_le_iff (d := d) (n := a.lower))
  have hupper' := lt_iff_lt_of_le_iff_le (Decimal.le_value_mul_iff (d := d) (n := a.upper))
  rw [covers_iff, ← hlower, ← hupper, ← hlower', ← hupper']
  exact ⟨fun ⟨h, h', h''⟩ => ⟨h, h', h''⟩, fun ⟨h, h', h''⟩ => ⟨h, h', h''⟩⟩

/-! ## Neighbours -/

/-- Ranks and magnitudes go together, and the next magnitude is a step further. -/
theorem quanta_add_le (h : a.rank < b.rank) : a.quanta + 2 ^ a.shift ≤ b.quanta := by
  have hshift : a.shift ≤ b.shift := by
    simp only [shift]
    omega
  have ha := a.significand_lt
  have hra := a.rank_eq
  have hrb := b.rank_eq
  simp only [quanta]
  rw [← Nat.succ_mul]
  rcases Nat.lt_or_eq_of_le hshift with hlt | heq
  · have hb := le_significand (a := b) (by omega)
    calc (a.significand + 1) * 2 ^ a.shift
      _ ≤ 2 ^ 53 * 2 ^ a.shift := Nat.mul_le_mul_right _ ha
      _ = 2 ^ 52 * 2 ^ (a.shift + 1) := by rw [Nat.pow_succ]; ring
      _ ≤ b.significand * 2 ^ b.shift :=
        Nat.mul_le_mul hb (Nat.pow_le_pow_right (by decide) hlt)
  · rw [heq] at hra ⊢
    exact Nat.mul_le_mul_right _ (by omega)

/-- The interval ends at most half-way to the magnitudes below. -/
theorem centre_add_le_of_lt (h : b.rank < a.rank) : b.centre + 2 * a.lowerGap ≤ a.centre := by
  have hgap := a.lowerGap_le
  have hnext := quanta_add_le h
  simp only [centre]
  by_cases hshift : b.shift = a.shift
  · rw [hshift] at hnext
    omega
  · -- The magnitudes of a lower binade are steps of at most half the size.
    obtain ⟨s, hs⟩ : ∃ s, a.shift = s + 1 :=
      Nat.exists_eq_succ_of_ne_zero (by simp only [shift] at *; omega)
    have hsig := le_significand (a := a) (by omega)
    have hb : b.quanta + 2 ^ s ≤ 2 ^ 53 * 2 ^ s := by
      calc b.quanta + 2 ^ s ≤ (2 ^ 53 - 1) * 2 ^ s + 2 ^ s :=
            Nat.add_le_add_right (Nat.mul_le_mul (Nat.le_pred_of_lt b.significand_lt)
              (Nat.pow_le_pow_right (by decide) (by simp only [shift] at *; omega))) _
        _ = 2 ^ 53 * 2 ^ s := by ring
    have ha : a.quanta = 2 * (a.significand * 2 ^ s) := by
      rw [quanta, hs, Nat.pow_succ]
      ring
    rw [ha, lowerGap, hs, Nat.pow_succ]
    split
    · rename_i hpower
      rw [hpower.1]
      omega
    · have := Nat.mul_le_mul_right (2 ^ s) (show 2 ^ 52 + 1 ≤ a.significand by omega)
      omega

/-- The interval ends at most half-way to the magnitudes above. -/
theorem centre_add_le_of_gt (h : a.rank < b.rank) :
    a.centre + 4 * 2 ^ a.shift ≤ b.centre := by
  have hnext := quanta_add_le h
  simp only [centre]
  omega

theorem value_lt_value (h : a.rank < b.rank) : a.value < b.value := by
  have hstep := quanta_add_le h
  have hpos := Nat.two_pow_pos a.shift
  rw [value, value]
  refine div_lt_div_of_pos_right ?_ Number.unitsPerOne_cast_pos
  exact_mod_cast (show a.quanta < b.quanta by omega)

theorem abs_sub_value_mul (a : Magnitude) (x : ℚ) :
    |x - a.value| * (4 * Number.unitsPerOne) = |4 * (x * Number.unitsPerOne) - a.centre| := by
  have hpos := Number.unitsPerOne_cast_pos
  rw [← value_mul_units]
  generalize (Number.unitsPerOne : ℚ) = u at *
  rw [← abs_of_pos (show 0 < 4 * u by positivity), ← abs_mul]
  congr 1
  ring

/-- **No other magnitude is nearer than the one that attracts a value,** and none is as near unless the
significand is even. -/
theorem Attracts.nearer (h : a.Attracts x) (hne : b ≠ a) :
    |x - a.value| ≤ |x - b.value| ∧
      (a.significand % 2 = 0 ∨ |x - a.value| < |x - b.value|) := by
  have hpos : (0 : ℚ) < 4 * Number.unitsPerOne := by
    have := Number.unitsPerOne_cast_pos
    positivity
  rw [← mul_le_mul_iff_left₀ hpos, ← mul_lt_mul_iff_left₀ hpos, abs_sub_value_mul,
    abs_sub_value_mul]
  obtain ⟨hlower, hupper, htie⟩ := h
  generalize 4 * (x * (Number.unitsPerOne : ℚ)) = y at *
  have hstep : (0 : ℚ) < 2 ^ a.shift := by positivity
  rcases Nat.lt_or_gt_of_ne fun hrank => hne (Magnitude.ext hrank) with hlt | hgt
  · have hgap : (0 : ℚ) < a.lowerGap := by exact_mod_cast a.lowerGap_pos
    have hbelow : (b.centre : ℚ) + 2 * a.lowerGap ≤ a.centre := by
      exact_mod_cast centre_add_le_of_lt hlt
    have hsum : (a.lower : ℚ) + a.lowerGap = a.centre := by
      exact_mod_cast lower_add_lowerGap (show a.rank ≠ 0 by omega)
    have hdist := le_abs_self (y - b.centre)
    refine ⟨?_, htie.imp_right fun ⟨hlower, _⟩ => ?_⟩
    · refine (abs_sub_le_iff.mpr ⟨?_, ?_⟩).trans hdist <;> linarith
    · refine (abs_sub_lt_iff.mpr ⟨?_, ?_⟩).trans_le hdist <;> linarith
  · have habove : (a.centre : ℚ) + 4 * 2 ^ a.shift ≤ b.centre := by
      exact_mod_cast centre_add_le_of_gt hgt
    have hsum : (a.upper : ℚ) = a.centre + 2 * 2 ^ a.shift := by
      rw [upper]
      push_cast
      rfl
    have hdist := neg_le_abs (y - b.centre)
    refine ⟨?_, htie.imp_right fun ⟨_, hupper⟩ => ?_⟩
    · refine (abs_sub_le_iff.mpr ⟨?_, ?_⟩).trans hdist <;> linarith
    · refine (abs_sub_lt_iff.mpr ⟨?_, ?_⟩).trans_le hdist <;> linarith

end Magnitude

/-! ## What a decimal stands for -/

/-- The point half-way between the largest number and the power of two behind it. -/
def Number.overflow : ℚ := 2 ^ 1024 - 2 ^ 970

/-- A number with the given sign is the value correctly rounded: no magnitude is nearer, and of two equally
near ones it has an even significand; but from a point on the number is infinite. -/
inductive IsRounding (x : ℚ) (negative : Bool) : Number → Prop
  | finite {a : Magnitude} : x < Number.overflow →
    (∀ b : Magnitude, |x - a.value| ≤ |x - b.value|) →
    (∀ b : Magnitude, b ≠ a → |x - a.value| = |x - b.value| → a.significand % 2 = 0) →
    IsRounding x negative (.finite negative a)
  | infinite : Number.overflow ≤ x → IsRounding x negative (.infinite negative)

namespace Magnitude

variable {a b : Magnitude} {x : ℚ}

/-- Neighbours differ in the parity of their significands. -/
theorem significand_mod_two (a : Magnitude) : a.significand % 2 = a.rank % 2 := by
  have := a.rank_eq
  omega

/-- Two magnitudes that are both nearest are neighbours. -/
theorem rank_eq_of_nearest (hrank : a.rank < b.rank)
    (ha : ∀ c : Magnitude, |x - a.value| ≤ |x - c.value|)
    (hb : ∀ c : Magnitude, |x - b.value| ≤ |x - c.value|) : b.rank = a.rank + 1 := by
  by_contra hne
  let c : Magnitude := ⟨a.rank + 1, by have := b.rank_lt; omega⟩
  have hac : a.value < c.value := value_lt_value (show a.rank < a.rank + 1 by omega)
  have hcb : c.value < b.value := value_lt_value (show a.rank + 1 < b.rank by omega)
  rcases le_total x c.value with hx | hx
  · have := hb c
    rw [abs_of_nonpos (by linarith), abs_of_nonpos (by linarith)] at this
    linarith
  · have := ha c
    rw [abs_of_nonneg (by linarith), abs_of_nonneg (by linarith)] at this
    linarith

end Magnitude

/-- **A value is correctly rounded in one way only.** -/
theorem IsRounding.unique {x : ℚ} {negative : Bool} {v w : Number} (hv : IsRounding x negative v)
    (hw : IsRounding x negative w) : v = w := by
  rcases hv with @⟨a, hx, ha, haeven⟩ | hx <;> rcases hw with @⟨b, hx', hb, hbeven⟩ | hx'
  · by_contra hne
    have hab : b ≠ a := fun h => hne (by rw [h])
    have heq := le_antisymm (ha b) (hb a)
    have haeven := haeven b hab heq
    have hbeven := hbeven a hab.symm heq.symm
    rw [Magnitude.significand_mod_two] at haeven hbeven
    rcases Nat.lt_or_gt_of_ne fun hrank => hab (Magnitude.ext hrank) with hlt | hgt
    · have := Magnitude.rank_eq_of_nearest hlt hb ha
      omega
    · have := Magnitude.rank_eq_of_nearest hgt ha hb
      omega
  · exact absurd hx (not_lt.mpr hx')
  · exact absurd hx' (not_lt.mpr hx)
  · rfl

theorem Magnitude.Attracts.isRounding {a : Magnitude} {x : ℚ} (h : a.Attracts x) (negative : Bool)
    (hx : x < Number.overflow) : IsRounding x negative (.finite negative a) := by
  refine .finite hx (fun b => ?_) fun b hne heq => ?_
  · by_cases hb : b = a
    · rw [hb]
    · exact (h.nearer hb).1
  · exact (h.nearer hne).2.resolve_right (not_lt.mpr heq.ge)

namespace Decimal

variable {d : Decimal} {a : Magnitude} {negative : Bool}

theorem toNumber_eq_finite_iff :
    d.toNumber negative = .finite negative a ↔ a.Attracts d.value := by
  rw [← Magnitude.covers_iff_attracts]
  refine ⟨fun h => ?_, toNumber_of_covers negative⟩
  rw [toNumber_eq_nearest, Number.nearest] at h
  split at h
  · cases h
    exact Magnitude.covers_iff.mpr (Number.interval_of_rankOfUnits d.den_pos rfl)
  · cases h

theorem overflow_le_value_iff :
    Number.overflow ≤ d.value ↔ 2047 * 2 ^ 52 ≤ Number.nearestRank d.num d.den := by
  rw [Number.nearestRank_eq, Number.le_rankOfUnits_iff d.den_pos, value_eq_div,
    le_div_iff₀ d.den_cast_pos]
  have hoverflow : Number.overflow * d.den = ((2 ^ 54 - 1) * (d.den * 2 ^ 970) : Nat) := by
    rw [Number.overflow, pow_add 2 54 970]
    push_cast
    ring
  have hden : (2 ^ 54 - 1) * (d.den * 2 ^ 2045) = (2 ^ 54 - 1) * (d.den * 2 ^ 970) * 2 ^ 1075 := by
    rw [Nat.pow_add 2 970 1075]
    ring
  have hnum : 2 * (d.num * Number.unitsPerOne) = d.num * 2 ^ 1075 := by
    calc 2 * (d.num * Number.unitsPerOne) = d.num * (2 ^ 1 * Number.unitsPerOne) := by ring
      _ = d.num * 2 ^ 1075 := by rw [Number.two_pow_mul_unitsPerOne]
  rw [hoverflow, hden, hnum, Nat.mul_le_mul_right_iff (Nat.two_pow_pos _)]
  exact_mod_cast Iff.rfl

theorem toNumber_eq_infinite_iff :
    d.toNumber negative = .infinite negative ↔ Number.overflow ≤ d.value := by
  rw [overflow_le_value_iff, toNumber_eq_nearest, Number.nearest]
  split
  · rename_i hrank
    exact iff_of_false (fun hfinite => by cases hfinite) (Nat.not_le.mpr hrank)
  · rename_i hrank
    exact iff_of_true rfl (Nat.not_lt.mp hrank)

/-- **A decimal stands for its value correctly rounded.** -/
theorem isRounding_toNumber (d : Decimal) (negative : Bool) :
    IsRounding d.value negative (d.toNumber negative) := by
  by_cases hoverflow : Number.overflow ≤ d.value
  · rw [toNumber_eq_infinite_iff.mpr hoverflow]
    exact .infinite hoverflow
  · have hrank := Nat.not_le.mp (mt overflow_le_value_iff.mpr hoverflow)
    have hnumber : d.toNumber negative = .finite negative ⟨_, hrank⟩ := by
      rw [toNumber_eq_nearest, Number.nearest]
      exact dif_pos hrank
    rw [hnumber]
    exact (toNumber_eq_finite_iff.mp hnumber).isRounding negative (not_le.mp hoverflow)

theorem toNumber_eq_iff {v : Number} : d.toNumber negative = v ↔ IsRounding d.value negative v :=
  ⟨fun h => h ▸ d.isRounding_toNumber negative, (d.isRounding_toNumber negative).unique⟩

end Decimal

end InfixCalc
