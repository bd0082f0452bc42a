import InfixCalc.Proofs.Nearest
import InfixCalc.Proofs.NumberText
/-!
# The shortest decimal

The decimals that stand for a magnitude are those of its interval. On the grid of a power of ten the two
neighbours of the magnitude decide whether there is one, and the first grid on which there is one has the
decimals with the fewest digits.

Main statements: `Magnitude.exponent_lt_or_distance_le`, no decimal of the interval lies on a coarser grid
than the one that is found, and `Magnitude.isShortest_shortest`.
-/

namespace InfixCalc

/-- A power of ten as a fraction. -/
theorem ten_zpow_mul (k : Int) : (10 : ℚ) ^ k * 10 ^ (-k).toNat = 10 ^ k.toNat := by
  rw [← zpow_natCast, ← zpow_natCast, ← zpow_add₀ (by norm_num)]
  congr 1
  omega

namespace Decimal

/-! ## The number of digits -/

def digitCount (d : Decimal) : Nat := (Nat.toDigits 10 d.digits).length

variable {d : Decimal}

theorem value_one (k : Int) : (⟨1, k⟩ : Decimal).value = 10 ^ k := by simp [value]

theorem digitCount_pos (d : Decimal) : 0 < d.digitCount :=
  List.length_pos_iff.mpr Nat.toDigits_ne_nil

theorem digits_lt_pow (d : Decimal) : d.digits < 10 ^ d.digitCount :=
  (Nat.length_toDigits_le_iff (by decide) d.digitCount_pos).mp (Nat.le_refl _)

theorem value_lt_pow (d : Decimal) : d.value < 10 ^ (d.digitCount + d.exponent : ℤ) := by
  rw [zpow_add₀ (by norm_num), value]
  gcongr
  exact_mod_cast d.digits_lt_pow

theorem pow_le_value (h : d.digits ≠ 0) : 10 ^ (d.digitCount - 1 + d.exponent : ℤ) ≤ d.value := by
  have hdigits : 10 ^ (d.digitCount - 1) ≤ d.digits := by
    by_contra! hlt
    have hpos : 0 < d.digitCount - 1 := by
      by_contra! hzero
      rw [show d.digitCount - 1 = 0 by omega, Nat.pow_zero] at hlt
      omega
    have := (Nat.length_toDigits_le_iff (by decide) hpos).mpr hlt
    rw [← digitCount] at this
    omega
  have hcount : (d.digitCount - 1 : ℤ) = ((d.digitCount - 1 : Nat) : ℤ) := by
    have := d.digitCount_pos
    omega
  rw [hcount, zpow_add₀ (by norm_num), value]
  gcongr
  exact_mod_cast hdigits

end Decimal

namespace Magnitude

variable {a : Magnitude} {d : Decimal} {tie : DecimalTie} {k : Int} {x y z : ℚ}

/-! ## The interval -/

theorem Attracts.convex (hx : a.Attracts x) (hz : a.Attracts z) (hxy : x ≤ y) (hyz : y ≤ z) :
    a.Attracts y := by
  have hpos := Number.unitsPerOne_cast_pos
  have hxy : 4 * (x * (Number.unitsPerOne : ℚ)) ≤ 4 * (y * Number.unitsPerOne) := by gcongr
  have hyz : 4 * (y * (Number.unitsPerOne : ℚ)) ≤ 4 * (z * Number.unitsPerOne) := by gcongr
  refine ⟨hx.lower_le.trans hxy, hyz.trans hz.le_upper, ?_⟩
  rcases hx.tie with heven | ⟨hlower, -⟩
  · exact .inl heven
  rcases hz.tie with heven | ⟨-, hupper⟩
  · exact .inl heven
  · exact .inr ⟨hlower.trans_le hxy, hyz.trans_lt hupper⟩

theorem attracts_value (a : Magnitude) : a.Attracts a.value := by
  have hupper := a.centre_lt_upper
  constructor
  · rw [value_mul_units]
    exact_mod_cast (show a.lower ≤ a.centre from Nat.sub_le _ _)
  · rw [value_mul_units]
    exact_mod_cast hupper.le
  · rw [value_mul_units]
    by_cases h : a.rank = 0
    · left
      simp [significand, h]
    · right
      exact_mod_cast (⟨lower_lt_centre h, hupper⟩ : a.lower < a.centre ∧ a.centre < a.upper)

/-! ## Neighbours on a grid -/

/-- The last point of the grid of `10 ^ k` that is not above the magnitude. -/
def below (a : Magnitude) (k : Int) : Decimal := ⟨a.centre * gridScale k / gridStep k, k⟩

/-- The first point of the grid of `10 ^ k` that is above the magnitude. -/
def above (a : Magnitude) (k : Int) : Decimal := ⟨a.centre * gridScale k / gridStep k + 1, k⟩

theorem onGrid?_eq (tie : DecimalTie) (a : Magnitude) (k : Int) : a.onGrid? tie k =
    select? a.covers (nearer tie (a.centre * gridScale k % gridStep k) (gridStep k) (a.below k)
      (a.above k)) (a.below k) (a.above k) := rfl

theorem above_value (a : Magnitude) (k : Int) : (a.above k).value = (a.below k).value + 10 ^ k := by
  simp only [Decimal.value, above, below]
  push_cast
  ring

/-- The grid and the magnitude in the units that the neighbours are computed in. -/
structure Scaled (a : Magnitude) (k : Int) (scale : ℚ) : Prop where
  pos : 0 < scale
  step_eq : 10 ^ k * scale = gridStep k
  centre_eq : a.value * scale = a.centre * gridScale k

theorem exists_scaled (a : Magnitude) (k : Int) : ∃ scale, a.Scaled k scale := by
  have hscale : (0 : ℚ) < gridScale k := by
    rw [gridScale]
    positivity
  have hstep : (10 : ℚ) ^ k * gridScale k = 10 ^ k.toNat := by
    rw [gridScale]
    push_cast
    exact ten_zpow_mul k
  have hgrid : (gridStep k : ℚ) = 4 * Number.unitsPerOne * 10 ^ k.toNat := by
    rw [gridStep]
    push_cast
    rfl
  have hunits := Number.unitsPerOne_cast_pos
  have hcentre := a.value_mul_units
  generalize (Number.unitsPerOne : ℚ) = u at *
  refine ⟨4 * u * gridScale k, by positivity, ?_, ?_⟩
  · rw [hgrid, ← hstep]
    ring
  · rw [← hcentre]
    ring

namespace Scaled

variable {scale : ℚ}

theorem sub_below (h : a.Scaled k scale) : (a.value - (a.below k).value) * scale =
    (a.centre * gridScale k % gridStep k : Nat) := by
  have hdiv : ((gridStep k * (a.centre * gridScale k / gridStep k) +
      a.centre * gridScale k % gridStep k : Nat) : ℚ) = (a.centre * gridScale k : Nat) := by
    rw [Nat.div_add_mod]
  push_cast at hdiv
  rw [sub_mul, h.centre_eq, Decimal.value, below, mul_assoc, h.step_eq, ← hdiv]
  push_cast
  ring

theorem above_sub (h : a.Scaled k scale) : ((a.above k).value - a.value) * scale =
    gridStep k - (a.centre * gridScale k % gridStep k : Nat) := by
  rw [← h.sub_below, ← h.step_eq, above_value]
  ring

end Scaled

theorem gridStep_pos (k : Int) : 0 < gridStep k :=
  Nat.mul_pos (Nat.mul_pos (by decide) Number.unitsPerOne_pos) (Nat.pow_pos (by decide))

theorem below_le (a : Magnitude) (k : Int) : (a.below k).value ≤ a.value := by
  obtain ⟨scale, h⟩ := a.exists_scaled k
  rw [← sub_nonneg, ← mul_nonneg_iff_of_pos_right h.pos, h.sub_below]
  exact Nat.cast_nonneg _

theorem lt_above (a : Magnitude) (k : Int) : a.value < (a.above k).value := by
  obtain ⟨scale, h⟩ := a.exists_scaled k
  rw [← sub_pos, ← mul_pos_iff_of_pos_right h.pos, h.above_sub, sub_pos]
  exact_mod_cast Nat.mod_lt _ (gridStep_pos k)

/-- How far a decimal is from the magnitude. -/
def distance (a : Magnitude) (d : Decimal) : ℚ := |d.value - a.value|

theorem distance_of_le (h : d.value ≤ a.value) : a.distance d = a.value - d.value := by
  rw [distance, abs_sub_comm, abs_of_nonneg (sub_nonneg.mpr h)]

theorem distance_of_ge (h : a.value ≤ d.value) : a.distance d = d.value - a.value :=
  abs_of_nonneg (sub_nonneg.mpr h)

/-- The nearer one of the two neighbours. -/
theorem distance_nearer (tie : DecimalTie) (a : Magnitude) (k : Int) :
    let better := nearer tie (a.centre * gridScale k % gridStep k) (gridStep k) (a.below k) (a.above k)
    a.distance better ≤ a.distance (a.below k) ∧ a.distance better ≤ a.distance (a.above k) := by
  intro better
  obtain ⟨scale, h⟩ := a.exists_scaled k
  have hle (x y : ℚ) : x ≤ y ↔ x * scale ≤ y * scale := (mul_le_mul_iff_left₀ h.pos).symm
  have hbelow := h.sub_below
  have habove := h.above_sub
  rw [← distance_of_le (a.below_le k)] at hbelow
  rw [← distance_of_ge (a.lt_above k).le] at habove
  rcases nearer_cases tie (a.centre * gridScale k % gridStep k) (gridStep k) (a.below k) (a.above k)
    with ⟨hbetter, hhalf⟩ | ⟨hbetter, hhalf⟩
  · rw [show better = a.below k from hbetter, hle _ (a.distance (a.above k)), hbelow, habove]
    have : 2 * ((a.centre * gridScale k % gridStep k : Nat) : ℚ) ≤ gridStep k := by
      exact_mod_cast hhalf
    exact ⟨le_refl _, by linarith⟩
  · rw [show better = a.above k from hbetter, hle _ (a.distance (a.below k)), hbelow, habove]
    have : (gridStep k : ℚ) ≤ 2 * (a.centre * gridScale k % gridStep k : Nat) := by
      exact_mod_cast hhalf
    exact ⟨by linarith, le_refl _⟩

/-- A decimal of the interval has a neighbour of the magnitude on its side. -/
theorem neighbour_of_attracts (h : a.Attracts d.value) :
    (a.Attracts (a.below d.exponent).value ∧ a.distance (a.below d.exponent) ≤ a.distance d) ∨
      (a.Attracts (a.above d.exponent).value ∧ a.distance (a.above d.exponent) ≤ a.distance d) := by
  have hbelow := a.below_le d.exponent
  have habove := a.lt_above d.exponent
  rcases Nat.lt_or_ge (a.centre * gridScale d.exponent / gridStep d.exponent) d.digits with hlt | hge
  · right
    have hd : (a.above d.exponent).value ≤ d.value := by
      simp only [Decimal.value, above]
      gcongr
      exact hlt
    refine ⟨a.attracts_value.convex h habove.le hd, ?_⟩
    rw [distance_of_ge habove.le, distance_of_ge (habove.le.trans hd)]
    linarith
  · left
    have hd : d.value ≤ (a.below d.exponent).value := by
      simp only [Decimal.value, below]
      gcongr
    refine ⟨h.convex a.attracts_value hd hbelow, ?_⟩
    rw [distance_of_le hbelow, distance_of_le (hd.trans hbelow)]
    linarith

/-! ## The choice on a grid -/

theorem exponent_of_onGrid? (h : a.onGrid? tie k = some d) : d.exponent = k := by
  rcases (of_select? (nearer_eq ..) h).2 with rfl | rfl <;> rfl

/-- **A grid with a decimal of the interval is found to have one, and none is nearer than that.** -/
theorem exists_onGrid? (tie : DecimalTie) (h : a.Attracts d.value) :
    ∃ found, a.onGrid? tie d.exponent = some found ∧ a.distance found ≤ a.distance d := by
  obtain ⟨hbelow, habove⟩ := distance_nearer tie a d.exponent
  have hside := neighbour_of_attracts h
  rw [← covers_iff_attracts, ← covers_iff_attracts] at hside
  rw [onGrid?_eq, select?]
  split
  · exact ⟨_, rfl, hside.elim (fun h => hbelow.trans h.2) fun h => habove.trans h.2⟩
  · rename_i hno
    exact ⟨_, rfl, (hside.resolve_right fun h => by simp [hno] at h).2⟩
  · rename_i hno _
    exact ⟨_, rfl, (hside.resolve_left fun h => by simp [hno] at h).2⟩
  · rename_i hno hno'
    simp [hno, hno'] at hside

/-! ## The first grid -/

/-- A power of ten for a binary logarithm. -/
def tenLog (l : Nat) : Int := ((l : Int) - 1073) * 30103 / 100000 + 1

theorem topExponent_eq (a : Magnitude) : a.topExponent = tenLog a.quanta.log2 := rfl

/-- The power of ten is not below half the magnitudes of that logarithm, and the last one that is tried
is far below them. -/
theorem tenLog_bounds {l : Nat} (h : l < 2098) :
    2 * 2 ^ l * 10 ^ (-tenLog l).toNat ≤ 10 ^ (tenLog l).toNat * Number.unitsPerOne ∧
      10 ^ (tenLog l - 20).toNat * Number.unitsPerOne * 2 ^ 54 ≤
        2 ^ l * 10 ^ (-(tenLog l - 20)).toNat := by
  have hall : (List.range 2098).all (fun l : Nat =>
      2 * 2 ^ l * 10 ^ (-tenLog l).toNat ≤ 10 ^ (tenLog l).toNat * Number.unitsPerOne &&
        10 ^ (tenLog l - 20).toNat * Number.unitsPerOne * 2 ^ 54 ≤
          2 ^ l * 10 ^ (-(tenLog l - 20)).toNat) = true := by
    decide +kernel
  have hl := List.all_eq_true.mp hall l (List.mem_range.mpr h)
  simpa only [Bool.and_eq_true, decide_eq_true_eq] using hl

theorem tenLog_bounds_cast {l : Nat} (h : l < 2098) :
    2 * (2 : ℚ) ^ l ≤ 10 ^ tenLog l * Number.unitsPerOne ∧
      10 ^ (tenLog l - 20) * Number.unitsPerOne * 2 ^ 54 ≤ (2 : ℚ) ^ l := by
  obtain ⟨hlow, hhigh⟩ := tenLog_bounds h
  have hlow : 2 * (2 : ℚ) ^ l * 10 ^ (-tenLog l).toNat ≤
      10 ^ (tenLog l).toNat * Number.unitsPerOne := by exact_mod_cast hlow
  have hhigh : (10 : ℚ) ^ (tenLog l - 20).toNat * Number.unitsPerOne * 2 ^ 54 ≤
      2 ^ l * 10 ^ (-(tenLog l - 20)).toNat := by exact_mod_cast hhigh
  rw [← ten_zpow_mul (tenLog l)] at hlow
  rw [← ten_zpow_mul (tenLog l - 20)] at hhigh
  constructor
  · refine le_of_mul_le_mul_right ?_ (show (0 : ℚ) < 10 ^ (-tenLog l).toNat by positivity)
    linarith
  · refine le_of_mul_le_mul_right ?_ (show (0 : ℚ) < 10 ^ (-(tenLog l - 20)).toNat by positivity)
    linarith

theorem quanta_pos (h : a.rank ≠ 0) : 0 < a.quanta :=
  Nat.mul_pos (significand_pos h) (Nat.two_pow_pos _)

/-- The logarithm is at most that of the largest magnitude, and a step of the significand is not far below
it. -/
theorem log2_quanta (h : a.rank ≠ 0) : a.quanta.log2 < 2098 ∧ a.quanta.log2 ≤ 52 + a.shift := by
  have hlog : a.quanta.log2 < 53 + a.shift := by
    refine (Nat.log2_lt (quanta_pos h).ne').mpr ?_
    rw [quanta, Nat.pow_add]
    exact Nat.mul_lt_mul_of_pos_right a.significand_lt (Nat.two_pow_pos _)
  have hshift : a.shift ≤ 2045 := by
    have := a.rank_lt
    simp only [shift]
    omega
  omega

theorem upper_le (h : a.rank ≠ 0) : a.upper ≤ 8 * a.quanta := by
  have := Nat.mul_le_mul_right (2 ^ a.shift) (significand_pos h)
  simp only [upper, centre, quanta]
  omega

theorem Attracts.pos (hx : a.Attracts x) (h : a.rank ≠ 0) : 0 < x := by
  have hpos := Number.unitsPerOne_cast_pos
  have hlower : 0 < a.lower := by
    rw [lower_eq]
    have := lowerGap_lt_centre h
    omega
  have hlower : (0 : ℚ) < a.lower := by exact_mod_cast hlower
  have := hlower.trans_le hx.lower_le
  by_contra! hle
  have := mul_nonpos_of_nonpos_of_nonneg hle hpos.le
  linarith

theorem Attracts.digits_ne_zero (hd : a.Attracts d.value) (h : a.rank ≠ 0) : d.digits ≠ 0 := by
  intro hzero
  have := hd.pos h
  rw [Decimal.value, hzero, Nat.cast_zero, zero_mul] at this
  exact lt_irrefl _ this

theorem exponent_le_topExponent (h : a.rank ≠ 0) (hd : a.Attracts d.value) :
    d.exponent ≤ a.topExponent := by
  by_contra! hlt
  have hpos := Number.unitsPerOne_cast_pos
  have hlog := (tenLog_bounds_cast (log2_quanta h).1).1
  rw [← topExponent_eq] at hlog
  have hpow : (10 : ℚ) ^ (a.topExponent + 1) ≤ d.value := by
    calc (10 : ℚ) ^ (a.topExponent + 1) ≤ 10 ^ (d.digitCount - 1 + d.exponent : ℤ) := by
          have := d.digitCount_pos
          exact zpow_le_zpow_right₀ (by norm_num) (by omega)
      _ ≤ d.value := Decimal.pow_le_value (hd.digits_ne_zero h)
  have hupper : 4 * (d.value * Number.unitsPerOne) ≤ 8 * (2 ^ a.quanta.log2 * 2) := by
    calc 4 * (d.value * (Number.unitsPerOne : ℚ)) ≤ a.upper := hd.le_upper
      _ ≤ 8 * a.quanta := by exact_mod_cast upper_le h
      _ ≤ 8 * (2 ^ a.quanta.log2 * 2) := by
        have := (Nat.lt_log2_self (n := a.quanta)).le
        rw [Nat.pow_succ] at this
        gcongr
        exact_mod_cast this
  rw [zpow_add_one₀ (by norm_num)] at hpow
  have hten : (0 : ℚ) < 10 ^ a.topExponent := by positivity
  generalize (Number.unitsPerOne : ℚ) = u at *
  have := mul_le_mul_of_nonneg_right hpow hpos.le
  have := mul_pos hten hpos
  linarith

/-- A value not far below the magnitude. -/
theorem attracts_of_le (h : a.rank ≠ 0) (hle : x ≤ a.value)
    (hnear : (a.centre : ℚ) < 4 * (x * Number.unitsPerOne) + 2 ^ a.shift) : a.Attracts x := by
  have hgap : (2 : ℚ) ^ a.shift ≤ a.lowerGap := by exact_mod_cast a.le_lowerGap
  have hlower : (a.lower : ℚ) + a.lowerGap = a.centre := by exact_mod_cast lower_add_lowerGap h
  have hupper : (a.centre : ℚ) < a.upper := by exact_mod_cast a.centre_lt_upper
  have hcentre : 4 * (x * Number.unitsPerOne) ≤ (a.centre : ℚ) := by
    have := mul_le_mul_of_nonneg_right hle Number.unitsPerOne_cast_pos.le
    rw [← value_mul_units]
    linarith
  have hstrict : (a.lower : ℚ) < 4 * (x * Number.unitsPerOne) := by linarith
  exact ⟨hstrict.le, hcentre.trans hupper.le, .inr ⟨hstrict, hcentre.trans_lt hupper⟩⟩

/-- The last grid that is tried is fine enough. -/
theorem attracts_below_topExponent (h : a.rank ≠ 0) :
    a.Attracts (a.below (a.topExponent - 20)).value := by
  obtain ⟨hlog, hshift⟩ := log2_quanta h
  have hfine := (tenLog_bounds_cast hlog).2
  rw [← topExponent_eq] at hfine
  have hpower : (2 : ℚ) ^ a.quanta.log2 ≤ 2 ^ 52 * 2 ^ a.shift := by
    rw [← pow_add]
    exact pow_le_pow_right₀ (by norm_num) hshift
  have hlt := a.lt_above (a.topExponent - 20)
  rw [above_value] at hlt
  have := mul_lt_mul_of_pos_right hlt Number.unitsPerOne_cast_pos
  refine attracts_of_le h (a.below_le _) ?_
  rw [← value_mul_units]
  linarith

/-- What is in front of an item of a range is smaller. -/
theorem mem_of_range_eq {n i j : Nat} {front behind : List Nat}
    (h : List.range n = front ++ i :: behind) (hj : j < i) : j ∈ front := by
  have hpairwise := List.pairwise_lt_range (n := n)
  rw [h] at hpairwise
  have hi : i ∈ List.range n := by simp [h]
  have hmem : j ∈ List.range n := List.mem_range.mpr (hj.trans (List.mem_range.mp hi))
  rw [h, List.mem_append, List.mem_cons] at hmem
  rcases hmem with hmem | rfl | hmem
  · exact hmem
  · exact absurd hj (Nat.lt_irrefl j)
  · have := List.rel_of_pairwise_cons (List.pairwise_append.mp hpairwise).2.1 hmem
    omega

/-- The digits are taken from the first grid that has a decimal of the interval. -/
theorem exists_first_grid (tie : DecimalTie) (h : a.rank ≠ 0) :
    ∃ i : Nat, a.onGrid? tie (a.topExponent - i) = some (a.shortest tie) ∧
      ∀ j < i, a.onGrid? tie (a.topExponent - j) = none := by
  obtain ⟨last, hlast, -⟩ := exists_onGrid? tie (attracts_below_topExponent h)
  rw [shortest, if_neg h]
  cases hfind : (List.range 21).findSome? fun (i : Nat) => a.onGrid? tie (a.topExponent - i) with
  | none =>
    have hnone := hlast.symm.trans (List.findSome?_eq_none_iff.mp hfind 20 (by simp))
    cases hnone
  | some d =>
    obtain ⟨front, i, behind, hrange, hi, hfront⟩ := List.findSome?_eq_some_iff.mp hfind
    exact ⟨i, hi, fun j hj => hfront j (mem_of_range_eq hrange hj)⟩

theorem attracts_shortest (tie : DecimalTie) (a : Magnitude) : a.Attracts (a.shortest tie).value :=
  Decimal.toNumber_eq_finite_iff.mp (toNumber_shortest tie false a)

/-- **No decimal of the interval lies on a coarser grid**, and none on the same grid is nearer. -/
theorem exponent_lt_or_distance_le (tie : DecimalTie) (h : a.rank ≠ 0) (hd : a.Attracts d.value) :
    d.exponent < (a.shortest tie).exponent ∨
      d.exponent = (a.shortest tie).exponent ∧ a.distance (a.shortest tie) ≤ a.distance d := by
  obtain ⟨i, hi, hnone⟩ := exists_first_grid tie h
  obtain ⟨found, hfound, hnear⟩ := exists_onGrid? tie hd
  have htop := exponent_le_topExponent h hd
  rw [exponent_of_onGrid? hi]
  rcases Int.lt_trichotomy d.exponent (a.topExponent - i) with hlt | heq | hgt
  · exact .inl hlt
  · rw [heq, hi] at hfound
    cases hfound
    exact .inr ⟨heq, hnear⟩
  · have hj := hnone (a.topExponent - d.exponent).toNat (by omega)
    rw [show a.topExponent - ((a.topExponent - d.exponent).toNat : Int) = d.exponent by omega,
      hfound] at hj
    cases hj

/-! ## The fewest digits -/

/-- Between decimals of different length lies a power of ten, on whose grid there is none but a single
digit. -/
theorem digitCount_eq_one (tie : DecimalTie) (h : a.rank ≠ 0) (hd : a.Attracts d.value)
    (hlt : d.digitCount + d.exponent < (a.shortest tie).digitCount + (a.shortest tie).exponent) :
    (a.shortest tie).digitCount = 1 ∧ d.value ≤ 10 ^ (a.shortest tie).exponent ∧
      a.Attracts (10 ^ (a.shortest tie).exponent) := by
  have hs := a.attracts_shortest tie
  have hhigh := Decimal.pow_le_value (hs.digits_ne_zero h)
  have hcount := (a.shortest tie).digitCount_pos
  have hgrid (power : Decimal) := exponent_lt_or_distance_le (d := power) tie h
  generalize a.shortest tie = shortest at *
  have hlow : d.value ≤ 10 ^ (shortest.digitCount - 1 + shortest.exponent : ℤ) := by
    refine d.value_lt_pow.le.trans (zpow_le_zpow_right₀ (by norm_num) ?_)
    omega
  have hpower := hd.convex hs hlow hhigh
  have hcoarse := hgrid ⟨1, shortest.digitCount - 1 + shortest.exponent⟩
    (by rwa [Decimal.value_one])
  have hone : shortest.digitCount = 1 := by
    simp only at hcoarse
    omega
  have hexponent : (shortest.digitCount - 1 + shortest.exponent : ℤ) = shortest.exponent := by omega
  rw [hexponent] at hlow hpower
  exact ⟨hone, hlow, hpower⟩

theorem digitCount_le (tie : DecimalTie) (h : a.rank ≠ 0) (hd : a.Attracts d.value) :
    (a.shortest tie).digitCount ≤ d.digitCount := by
  by_contra! hlt
  have hexponent : d.exponent ≤ (a.shortest tie).exponent :=
    (exponent_lt_or_distance_le tie h hd).elim Int.le_of_lt fun h => h.1.le
  have hone := (digitCount_eq_one tie h hd (by omega)).1
  have := d.digitCount_pos
  omega

/-! ## A single digit

A magnitude whose interval reaches from `9 * 10 ^ (k - 1)` to `10 ^ k` is one of the least ones, which are
checked one by one. -/

theorem rank_lt_of_attracts {t : ℚ} (hlow : a.Attracts (9 / 10 * t)) (hhigh : a.Attracts t)
    (hlt : a.value < t) : a.rank < 10 := by
  have hunits := Number.unitsPerOne_cast_pos
  have hcentre := a.value_mul_units
  have hsig : (a.centre : ℚ) = 4 * a.significand * 2 ^ a.shift := by
    rw [centre, quanta]
    push_cast
    ring
  have hlower : (a.centre : ℚ) ≤ a.lower + 2 * 2 ^ a.shift := by
    have := a.lowerGap_le
    exact_mod_cast (show a.centre ≤ a.lower + 2 * 2 ^ a.shift by rw [lower_eq]; omega)
  have hupper : (a.upper : ℚ) = a.centre + 2 * 2 ^ a.shift := by
    rw [upper]
    push_cast
    rfl
  have hlow := hlow.lower_le
  have hhigh := hhigh.le_upper
  have hsmall : a.significand < 10 := by
    generalize (Number.unitsPerOne : ℚ) = u at *
    have hcast : (a.significand : ℚ) < 10 := by
      refine lt_of_mul_lt_mul_right ?_ (show (0 : ℚ) ≤ 4 * 2 ^ a.shift by positivity)
      have := mul_lt_mul_of_pos_right hlt hunits
      linarith
    exact_mod_cast hcast
  have hshift : a.shift = 0 := by
    by_contra hne
    have := le_significand hne
    omega
  rw [a.rank_eq, hshift]
  omega

/-- If a power of ten is in the interval of one of the least magnitudes, that is the nearest single digit
from nine tenths of the power on. -/
theorem gridStep_le_centre (tie : DecimalTie) (h : a.rank ≠ 0) (hrank : a.rank < 10)
    (hpower : a.covers ⟨1, (a.shortest tie).exponent⟩ = true) :
    19 * gridStep (a.shortest tie).exponent ≤
      20 * (a.centre * gridScale (a.shortest tie).exponent) := by
  have hall : ∀ r : Fin 10, let a : Magnitude := ⟨r, r.isLt.trans (by decide)⟩
      a.rank ≠ 0 → a.covers ⟨1, (a.shortest tie).exponent⟩ = true →
        19 * gridStep (a.shortest tie).exponent ≤
          20 * (a.centre * gridScale (a.shortest tie).exponent) := by
    cases tie <;> decide +kernel
  exact hall ⟨a.rank, hrank⟩ h hpower

theorem distance_power_le (tie : DecimalTie) (h : a.rank ≠ 0) (hd : a.Attracts d.value)
    (hpower : a.Attracts (10 ^ (a.shortest tie).exponent))
    (hle : d.value ≤ 9 / 10 * 10 ^ (a.shortest tie).exponent) :
    a.distance ⟨1, (a.shortest tie).exponent⟩ ≤ a.distance d := by
  have hone := Decimal.value_one (a.shortest tie).exponent
  have hpos : (0 : ℚ) < 10 ^ (a.shortest tie).exponent := by positivity
  rcases le_or_gt (10 ^ (a.shortest tie).exponent) a.value with hge | hlt
  · rw [distance_of_le (hone ▸ hge), hone, distance_of_le (by linarith)]
    linarith
  · have hnine := hd.convex hpower hle (by linarith)
    have hrank := rank_lt_of_attracts hnine hpower hlt
    have hstep := gridStep_le_centre tie h hrank (covers_iff_attracts.mpr (hone ▸ hpower))
    obtain ⟨scale, hscale⟩ := a.exists_scaled (a.shortest tie).exponent
    have hnear : 19 * 10 ^ (a.shortest tie).exponent ≤ 20 * a.value := by
      refine le_of_mul_le_mul_right ?_ hscale.pos
      rw [mul_assoc, hscale.step_eq, mul_assoc, hscale.centre_eq]
      exact_mod_cast hstep
    rw [distance_of_ge (hone ▸ hlt.le), hone, distance_of_le (by linarith)]
    linarith

/-- **Of the decimals with the fewest digits none is nearer.** -/
theorem distance_le (tie : DecimalTie) (h : a.rank ≠ 0) (hd : a.Attracts d.value)
    (hcount : d.digitCount = (a.shortest tie).digitCount) :
    a.distance (a.shortest tie) ≤ a.distance d := by
  rcases exponent_lt_or_distance_le tie h hd with hlt | ⟨-, hnear⟩
  · obtain ⟨hone, -, hpower⟩ := digitCount_eq_one tie h hd (by omega)
    have hnear := (exponent_lt_or_distance_le (d := ⟨1, (a.shortest tie).exponent⟩) tie h
      (by rwa [Decimal.value_one])).resolve_left (lt_irrefl _)
    refine hnear.2.trans (distance_power_le tie h hd hpower ?_)
    have hdigits : d.digits ≤ 9 := by
      have := d.digits_lt_pow
      rw [hcount, hone] at this
      omega
    calc d.value ≤ 9 * 10 ^ ((a.shortest tie).exponent - 1) := by
          rw [Decimal.value]
          gcongr
          · exact_mod_cast hdigits
          · norm_num
          · omega
      _ = 9 / 10 * 10 ^ (a.shortest tie).exponent := by
          rw [zpow_sub_one₀ (by norm_num)]
          ring
  · exact hnear

/-! ## The shortest decimal -/

/-- The decimal stands for the magnitude, no decimal that does has fewer digits, and none with as few
digits is nearer. -/
structure IsShortest (a : Magnitude) (d : Decimal) : Prop where
  toNumber_eq : ∀ negative, d.toNumber negative = .finite negative a
  fewest : ∀ d' : Decimal, d'.toNumber false = .finite false a → d.digitCount ≤ d'.digitCount
  nearest : ∀ d' : Decimal, d'.toNumber false = .finite false a → d'.digitCount = d.digitCount →
    |d.value - a.value| ≤ |d'.value - a.value|

/-- **The decimal that is found is the shortest one.** -/
theorem isShortest_shortest (tie : DecimalTie) (a : Magnitude) : a.IsShortest (a.shortest tie) := by
  have hread (negative : Bool) := toNumber_shortest tie negative a
  by_cases h : a.rank = 0
  · obtain rfl : a = zero := Magnitude.ext h
    have hshortest : zero.shortest tie = ⟨0, 0⟩ := rfl
    have hzero : (⟨0, 0⟩ : Decimal).value - zero.value = 0 := by
      have hquanta : zero.quanta = 0 := by decide
      rw [value, hquanta, Nat.cast_zero, zero_div, sub_zero]
      simp [Decimal.value]
    rw [hshortest] at hread ⊢
    refine ⟨hread, fun d _ => d.digitCount_pos, fun d _ _ => ?_⟩
    rw [hzero, abs_zero]
    exact abs_nonneg _
  · exact ⟨hread, fun _ hd => digitCount_le tie h (Decimal.toNumber_eq_finite_iff.mp hd),
      fun _ hd hcount => distance_le tie h (Decimal.toNumber_eq_finite_iff.mp hd) hcount⟩

end Magnitude

end InfixCalc
