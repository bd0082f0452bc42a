import InfixCalc.Number.Reading
import InfixCalc.Number.Text
import InfixCalc.Proofs.Rounding
import Mathlib.Data.List.TakeWhile
/-!
# Reading back the text of a number

The shortest decimal of a magnitude stands for it, a positional spelling keeps the value of its decimal,
and so the text of a number reads back as that number.

Main statement: `Number.ofText?_text`, where every not-a-number is read as the quiet one.
-/

namespace InfixCalc

namespace Magnitude

/-! ## The shortest decimal -/

/-- The lower neighbour is taken in the lower half of a step and the upper one in the upper half. -/
theorem nearer_cases (tie : DecimalTie) (remainder step : Nat) (below above : Decimal) :
    nearer tie remainder step below above = below ∧ 2 * remainder ≤ step ∨
      nearer tie remainder step below above = above ∧ step ≤ 2 * remainder := by
  unfold nearer
  grind

theorem nearer_eq (tie : DecimalTie) (remainder step : Nat) (below above : Decimal) :
    nearer tie remainder step below above = below ∨
      nearer tie remainder step below above = above :=
  (nearer_cases tie remainder step below above).imp And.left And.left

theorem of_select? {p : Decimal → Bool} {better below above d : Decimal}
    (hbetter : better = below ∨ better = above) (h : select? p better below above = some d) :
    p d = true ∧ (d = below ∨ d = above) := by
  unfold select? at h
  split at h <;> cases h
  · rename_i hbelow habove
    rcases hbetter with rfl | rfl
    · exact ⟨hbelow, .inl rfl⟩
    · exact ⟨habove, .inr rfl⟩
  · rename_i hbelow _
    exact ⟨hbelow, .inl rfl⟩
  · rename_i _ habove
    exact ⟨habove, .inr rfl⟩

theorem covers_of_onGrid? {tie : DecimalTie} {a : Magnitude} {e : Int} {d : Decimal}
    (h : a.onGrid? tie e = some d) : a.covers d = true :=
  (of_select? (nearer_eq ..) h).1

theorem covers_exactDecimal {a : Magnitude} (h : a.rank ≠ 0) : a.covers a.exactDecimal = true := by
  have hpoint : 4 * (a.exactDecimal.num * Number.unitsPerOne) = a.centre * a.exactDecimal.den := by
    simp only [Decimal.num, Decimal.den, exactDecimal, centre]
    show 4 * (a.quanta * 5 ^ 1074 * 10 ^ 0 * 2 ^ 1074) = 4 * a.quanta * (5 * 2) ^ 1074
    rw [Nat.mul_pow]
    ring
  have hden := a.exactDecimal.den_pos
  have hlow := Nat.mul_lt_mul_of_pos_right (lower_lt_centre h) hden
  have hhigh := Nat.mul_lt_mul_of_pos_right a.centre_lt_upper hden
  rw [covers_iff, hpoint]
  exact ⟨hlow.le, hhigh.le, .inr ⟨hlow, hhigh⟩⟩

theorem covers_shortest (tie : DecimalTie) {a : Magnitude} (h : a.rank ≠ 0) :
    a.covers (a.shortest tie) = true := by
  rw [shortest, if_neg h]
  cases hgrid : (List.range 21).findSome? fun (i : Nat) => a.onGrid? tie (a.topExponent - i) with
  | none => exact covers_exactDecimal h
  | some d =>
    obtain ⟨i, -, hi⟩ := List.exists_of_findSome?_eq_some hgrid
    exact covers_of_onGrid? hi

/-- The shortest decimal of a magnitude stands for it. -/
theorem toNumber_shortest (tie : DecimalTie) (negative : Bool) (a : Magnitude) :
    (a.shortest tie).toNumber negative = .finite negative a := by
  by_cases h : a.rank = 0
  · obtain rfl : a = zero := Magnitude.ext h
    rfl
  · exact Decimal.toNumber_of_covers negative (covers_shortest tie h)

end Magnitude

namespace Decimal

/-! ## Digits -/

theorem length_lastDigits {width : Nat} (hw : 0 < width) (n : Nat) :
    (lastDigits width n).length = width := by
  have hlen : (Nat.toDigits 10 (n % 10 ^ width)).length ≤ width :=
    (Nat.length_toDigits_le_iff (by decide) hw).mpr (Nat.mod_lt _ (Nat.pow_pos (by decide)))
  simp only [lastDigits, List.length_append, List.length_replicate]
  omega

theorem isDigit_of_mem_lastDigits {width n : Nat} {c : Char} (h : c ∈ lastDigits width n) :
    c.isDigit = true := by
  rcases List.mem_append.mp h with h | h
  · rw [List.eq_of_mem_replicate h]
    rfl
  · exact Nat.isDigit_of_mem_toDigits (by decide) (by decide) h

theorem ofDigitChars_lastDigits (width n : Nat) :
    Nat.ofDigitChars 10 (lastDigits width n) 0 = n % 10 ^ width := by
  rw [lastDigits, Nat.ofDigitChars_append, Nat.ofDigitChars_replicate_zero, Nat.mul_zero,
    Nat.ofDigitChars_ten_toDigits]

/-- The zeros that are dropped. -/
theorem dropClosingZeros_append (cs : List Char) :
    ∃ zeros, cs = dropClosingZeros cs ++ List.replicate zeros '0' := by
  refine ⟨(cs.reverse.takeWhile (· == '0')).length, ?_⟩
  have hzeros : cs.reverse.takeWhile (· == '0') =
      List.replicate (cs.reverse.takeWhile (· == '0')).length '0' := by
    rw [List.eq_replicate_iff]
    exact ⟨rfl, fun c hc => by simpa using List.mem_takeWhile_imp hc⟩
  have hsplit : cs.reverse = cs.reverse.takeWhile (· == '0') ++ cs.reverse.dropWhile (· == '0') :=
    List.takeWhile_append_dropWhile.symm
  rw [dropClosingZeros, ← List.reverse_replicate, ← hzeros, ← List.reverse_append, ← hsplit,
    List.reverse_reverse]

/-- The whole digits and those of the fraction together are the digits of the number. -/
theorem ofDigitChars_append_lastDigits {places : Nat} (hp : 0 < places) (n : Nat) :
    Nat.ofDigitChars 10 (Nat.toDigits 10 (n / 10 ^ places) ++ lastDigits places n) 0 = n := by
  rw [Nat.ofDigitChars_append, Nat.ofDigitChars_ten_toDigits, Nat.ofDigitChars_eq_ofDigitChars_zero,
    length_lastDigits hp, ofDigitChars_lastDigits, Nat.div_add_mod]

/-! ## Reading digits -/

theorem ofChars?_whole {cs : List Char} (hne : cs ≠ []) (hcs : ∀ c ∈ cs, c.isDigit = true) :
    ofChars? cs = some ⟨Nat.ofDigitChars 10 cs 0, 0⟩ := by
  have htake : cs.takeWhile Char.isDigit = cs := List.takeWhile_eq_self_iff.mpr hcs
  have hdrop : cs.dropWhile Char.isDigit = [] := List.dropWhile_eq_nil_iff.mpr hcs
  simp only [ofChars?, htake, hdrop, fractionDigits, List.append_nil, hne, if_false]
  rfl

theorem ofChars?_point {cs ds : List Char} (hne : cs ≠ []) (hcs : ∀ c ∈ cs, c.isDigit = true)
    (hds : ∀ c ∈ ds, c.isDigit = true) :
    ofChars? (cs ++ '.' :: ds) = some ⟨Nat.ofDigitChars 10 (cs ++ ds) 0, -ds.length⟩ := by
  have htake : (cs ++ '.' :: ds).takeWhile Char.isDigit = cs := by
    rw [List.takeWhile_append_of_pos hcs]
    exact List.append_nil cs
  have hdrop : (cs ++ '.' :: ds).dropWhile Char.isDigit = '.' :: ds :=
    List.dropWhile_append_of_pos hcs
  have htake' : ds.takeWhile Char.isDigit = ds := List.takeWhile_eq_self_iff.mpr hds
  have hdrop' : ds.dropWhile Char.isDigit = [] := List.dropWhile_eq_nil_iff.mpr hds
  simp only [ofChars?, htake, hdrop, fractionDigits, htake', hdrop', List.append_eq_nil_iff, hne,
    false_and, if_false, exponentPart?, Option.map_some, zero_sub]

theorem isDigit_of_mem_dropClosingZeros {cs : List Char} {c : Char} (h : c ∈ dropClosingZeros cs)
    (hcs : ∀ c ∈ cs, c.isDigit = true) : c.isDigit = true := by
  obtain ⟨zeros, hzeros⟩ := dropClosingZeros_append cs
  apply hcs
  rw [hzeros]
  exact List.mem_append_left _ h

theorem ofChars?_append_fractionSpelling {cs ds : List Char} (hne : cs ≠ [])
    (hcs : ∀ c ∈ cs, c.isDigit = true) (hds : ∀ c ∈ ds, c.isDigit = true) :
    ofChars? (cs ++ fractionSpelling ds) =
      some ⟨Nat.ofDigitChars 10 (cs ++ dropClosingZeros ds) 0, -(dropClosingZeros ds).length⟩ := by
  unfold fractionSpelling
  split
  · rename_i hnil
    rw [hnil, List.append_nil, ofChars?_whole hne hcs]
    rfl
  · exact ofChars?_point hne hcs fun c hc => isDigit_of_mem_dropClosingZeros hc hds

theorem positional_ofNat (digits places : Nat) :
    positional ⟨digits, .ofNat places⟩ = Nat.toDigits 10 (digits * 10 ^ places) := rfl

theorem positional_negSucc (digits k : Nat) :
    positional ⟨digits, .negSucc k⟩ = Nat.toDigits 10 (digits / 10 ^ (k + 1)) ++
      fractionSpelling (lastDigits (k + 1) digits) := rfl

/-- A positional spelling reads back as a decimal of the same value. -/
theorem ofChars?_positional (d : Decimal) :
    ∃ d', ofChars? d.positional = some d' ∧ d'.num * d.den = d.num * d'.den := by
  have hwhole : ∀ n, ∀ c ∈ Nat.toDigits 10 n, c.isDigit = true :=
    fun n c hc => Nat.isDigit_of_mem_toDigits (by decide) (by decide) hc
  obtain ⟨digits, places | k⟩ := d
  · rw [positional_ofNat]
    refine ⟨_, ofChars?_whole Nat.toDigits_ne_nil (hwhole _), ?_⟩
    simp [num, den, Nat.ofDigitChars_ten_toDigits]
  · rw [positional_negSucc]
    refine ⟨_, ofChars?_append_fractionSpelling Nat.toDigits_ne_nil (hwhole _)
      fun c hc => isDigit_of_mem_lastDigits hc, ?_⟩
    have hdigits := ofDigitChars_append_lastDigits k.succ_pos digits
    have hlen := length_lastDigits k.succ_pos digits
    obtain ⟨zeros, hzeros⟩ := dropClosingZeros_append (lastDigits (k + 1) digits)
    generalize dropClosingZeros (lastDigits (k + 1) digits) = fraction at *
    -- The zeros dropped from the digits are missing in the places as well.
    rw [hzeros, ← List.append_assoc, Nat.ofDigitChars_append, Nat.ofDigitChars_replicate_zero]
      at hdigits
    rw [hzeros, List.length_append, List.length_replicate] at hlen
    generalize Nat.ofDigitChars 10 (Nat.toDigits 10 (digits / 10 ^ (k + 1)) ++ fraction) 0 = n at *
    have hlength : (-(-fraction.length : Int)).toNat = fraction.length := by omega
    have hplaces : (-Int.negSucc k).toNat = fraction.length + zeros := hlen.symm
    have hzero : (-fraction.length : Int).toNat = 0 := by omega
    simp only [num, den, hlength, hplaces, hzero, Int.toNat_negSucc]
    rw [← hdigits]
    ring

/-! ## The characters of a spelling -/

theorem mem_positional {d : Decimal} {c : Char} (h : c ∈ d.positional) :
    c.isDigit = true ∨ c = '.' := by
  obtain ⟨digits, places | k⟩ := d
  · rw [positional_ofNat] at h
    exact .inl (Nat.isDigit_of_mem_toDigits (by decide) (by decide) h)
  · rw [positional_negSucc] at h
    rcases List.mem_append.mp h with h | h
    · exact .inl (Nat.isDigit_of_mem_toDigits (by decide) (by decide) h)
    unfold fractionSpelling at h
    split at h
    · cases h
    rcases List.mem_cons.mp h with h | h
    · exact .inr h
    · exact .inl (isDigit_of_mem_dropClosingZeros h fun c hc => isDigit_of_mem_lastDigits hc)

/-- A positional spelling begins with a digit. -/
theorem positional_eq_cons (d : Decimal) : ∃ c cs, d.positional = c :: cs ∧ c.isDigit = true := by
  obtain ⟨n, rest, h⟩ : ∃ n rest, d.positional = Nat.toDigits 10 n ++ rest := by
    obtain ⟨digits, places | k⟩ := d
    · exact ⟨_, [], (List.append_nil _).symm⟩
    · exact ⟨_, _, rfl⟩
  obtain ⟨c, cs, hdigits⟩ := List.exists_cons_of_ne_nil (Nat.toDigits_ne_nil (n := n) (b := 10))
  refine ⟨c, cs ++ rest, by rw [h, hdigits]; rfl, ?_⟩
  exact Nat.isDigit_of_mem_toDigits (b := 10) (n := n) (by decide) (by decide) (by simp [hdigits])

end Decimal

namespace Number

/-- What a number is read back as: every not-a-number becomes the quiet one. -/
def quiet : Number → Number
  | nan _ => nan false
  | v => v

theorem text_quiet (v : Number) : v.quiet.text = v.text := by cases v <;> rfl

/-! ## Reading a text -/

theorem ofUnsigned?_positional (negative : Bool) (d : Decimal) :
    ofUnsigned? negative d.positional = some (d.toNumber negative) := by
  obtain ⟨d', hread, hvalue⟩ := d.ofChars?_positional
  rw [ofUnsigned?, hread]
  exact congrArg some (Decimal.toNumber_congr negative hvalue)

/-- Only a sign changes the way the rest is read. -/
theorem ofChars?_of_isDigit {c : Char} (h : c.isDigit = true) (cs : List Char) :
    ofChars? (c :: cs) = ofUnsigned? false (c :: cs) := by
  unfold ofChars?
  split
  · rename_i heq
    cases heq
    cases h
  · rename_i heq
    cases heq
    cases h
  · rfl

theorem toList_text_finite (s : Bool) (a : Magnitude) :
    (finite s a).text.toList = (signText s).toList ++ (a.shortest .up).positional := by
  rw [text, String.toList_append, String.toList_ofList]

/-- A character that the text of a number may have. -/
def isTextual (c : Char) : Bool := c.isDigit || ".-NaNinf".toList.contains c

theorem isTextual_of_mem_text {v : Number} {c : Char} (h : c ∈ v.text.toList) :
    isTextual c = true := by
  match v with
  | .nan true | .nan false | .infinite true | .infinite false =>
    exact List.all_eq_true.mp (by decide) c h
  | .finite s a =>
    rw [toList_text_finite] at h
    rcases List.mem_append.mp h with h | h
    · cases s with
      | false => cases h
      | true =>
        obtain rfl := List.mem_singleton.mp h
        decide
    · rcases Decimal.mem_positional h with h | rfl
      · simp [isTextual, h]
      · decide

/-- **The text of a number reads back as the number.** -/
theorem ofText?_text (v : Number) : ofText? v.text = some v.quiet := by
  match v with
  | nan _ =>
    show ofText? "NaN" = some (nan false)
    decide
  | infinite false | infinite true => decide
  | finite false a =>
    obtain ⟨c, cs, hcons, hdigit⟩ := (a.shortest .up).positional_eq_cons
    rw [ofText?, toList_text_finite, hcons]
    change ofChars? (c :: cs) = _
    rw [ofChars?_of_isDigit hdigit, ← hcons, ofUnsigned?_positional, Magnitude.toNumber_shortest]
    rfl
  | finite true a =>
    rw [ofText?, toList_text_finite]
    change ofUnsigned? true (a.shortest .up).positional = _
    rw [ofUnsigned?_positional, Magnitude.toNumber_shortest]
    rfl

theorem quiet_nearest (negative : Bool) (num den : Nat) :
    (nearest negative num den).quiet = nearest negative num den := by
  unfold nearest
  dsimp only
  split <;> rfl

theorem quiet_of_ofUnsigned? {negative : Bool} {cs : List Char} {v : Number}
    (h : ofUnsigned? negative cs = some v) : v.quiet = v := by
  unfold ofUnsigned? at h
  split at h
  · cases h
    rw [Decimal.toNumber_eq_nearest, quiet_nearest]
  · unfold ofWord? at h
    dsimp only at h
    split at h
    · cases h
      rfl
    split at h <;> cases h
    rfl

/-- No text gives a signaling not-a-number. -/
theorem quiet_of_ofText? {text : String} {v : Number} (h : ofText? text = some v) :
    v.quiet = v := by
  unfold ofText? ofChars? at h
  split at h <;> exact quiet_of_ofUnsigned? h

end Number

end InfixCalc
