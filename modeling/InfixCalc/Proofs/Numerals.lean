import InfixCalc.Json.Number
import InfixCalc.Proofs.Documents
import InfixCalc.Proofs.NumberText
/-!
# Numerals

A number is written in a document as a sign, a whole part, a fraction and an exponent, of which the
reader takes one after the other. So the spelling of every finite number is read as one number.

Main statements: `Json.IsUnsigned.isNumeral` and `Number.isNumeral_jsonSpelling`.
-/

namespace InfixCalc

namespace Json

/-! ## The parts of a number -/

/-- At least one digit. -/
def IsDigits (ds : List Char) : Prop := ds ≠ [] ∧ ∀ c ∈ ds, c.isDigit = true

/-- A zero in front of other digits is superfluous. -/
def IsWhole (ds : List Char) : Prop := IsDigits ds ∧ ∀ d more, ds ≠ '0' :: d :: more

inductive IsFraction : List Char → Prop
  | none : IsFraction []
  | point {ds : List Char} : IsDigits ds → IsFraction ('.' :: ds)

inductive IsExponent : List Char → Prop
  | none : IsExponent []
  | power {c : Char} {ds : List Char} : c = '+' ∨ c = '-' → IsDigits ds → IsExponent ('e' :: c :: ds)

/-- A number without a sign. -/
inductive IsUnsigned : List Char → Prop
  | parts {whole fraction exponent : List Char} : IsWhole whole → IsFraction fraction →
    IsExponent exponent → IsUnsigned (whole ++ fraction ++ exponent)

section
variable {ds rest : List Char}

/-! ## Reading the parts -/

theorem digits?_append (hds : IsDigits ds) (hrest : ∀ c ∈ rest.head?, c.isDigit = false) :
    digits? (ds ++ rest) = some (ds, rest) := by
  have hstop : rest.takeWhile Char.isDigit = [] ∧ rest.dropWhile Char.isDigit = rest := by
    rcases rest with _ | ⟨c, rest⟩
    · exact ⟨rfl, rfl⟩
    · have hc : ¬ c.isDigit = true := by simpa using hrest c
      exact ⟨List.takeWhile_cons_of_neg hc, List.dropWhile_cons_of_neg hc⟩
  have htake : (ds ++ rest).takeWhile Char.isDigit = ds := by
    rw [List.takeWhile_append_of_pos hds.2, hstop.1, List.append_nil]
  have hdrop : (ds ++ rest).dropWhile Char.isDigit = rest := by
    rw [List.dropWhile_append_of_pos hds.2, hstop.2]
  rw [digits?, htake, hdrop]
  split
  · exact absurd rfl hds.1
  · rfl

theorem whole?_append (hds : IsWhole ds) (hrest : ∀ c ∈ rest.head?, c.isDigit = false) :
    whole? (ds ++ rest) = some (ds, rest) := by
  rw [whole?, digits?_append hds.1 hrest]
  split
  · rename_i heq
    cases heq
    exact absurd rfl (hds.2 _ _)
  · rfl

theorem fraction?_append {fraction : List Char} (h : IsFraction fraction)
    (hrest : ∀ c ∈ rest.head?, c.isDigit = false ∧ c ≠ '.') :
    fraction? (fraction ++ rest) = some (fraction, rest) := by
  cases h with
  | none =>
    rw [List.nil_append]
    unfold fraction?
    split
    · exact absurd rfl (hrest '.' rfl).2
    · rfl
  | point hds =>
    show (digits? (_ ++ rest)).map _ = _
    rw [digits?_append hds fun c hc => (hrest c hc).1]
    rfl

theorem exponent?_append {exponent : List Char} (h : IsExponent exponent) (hrest : Delimits rest) :
    exponent? (exponent ++ rest) = some (exponent, rest) := by
  cases h with
  | none =>
    rcases rest with _ | ⟨c, rest⟩
    · rfl
    · have hc : ¬ (c = 'e' ∨ c = 'E') := by
        rintro (rfl | rfl) <;> cases hrest _ rfl
      show (if c = 'e' ∨ c = 'E' then _ else _) = _
      rw [if_neg hc]
  | power hsign hds =>
    have hread := digits?_append hds hrest.isDigit_eq_false
    rcases hsign with rfl | rfl
    · show (digits? (_ ++ rest)).map _ = _
      rw [hread]
      rfl
    · show (digits? (_ ++ rest)).map _ = _
      rw [hread]
      rfl

/-- The sign is told from the digit behind it. -/
theorem sign_append (negative : Bool) (hds : IsDigits ds) (rest : List Char) :
    sign ((if negative then ['-'] else []) ++ (ds ++ rest)) =
      (if negative then ['-'] else [], ds ++ rest) := by
  obtain ⟨d, ds, rfl⟩ := List.exists_cons_of_ne_nil hds.1
  cases negative with
  | false =>
    show sign (d :: (ds ++ rest)) = ([], d :: (ds ++ rest))
    unfold sign
    split
    · rename_i heq
      cases heq
      cases hds.2 '-' List.mem_cons_self
    · rfl
  | true => rfl

/-- **The parts of a number are read as one number**, with a sign or without. -/
theorem IsUnsigned.isNumeral {spelling : List Char} (h : IsUnsigned spelling) (negative : Bool) :
    IsNumeral ((if negative then ['-'] else []) ++ spelling) := by
  intro rest hrest
  obtain ⟨hwhole, hfraction, hexponent⟩ := h
  rename_i whole fraction exponent
  -- No part goes on into the next one.
  have hbehind : ∀ c ∈ (exponent ++ rest).head?, c.isDigit = false ∧ c ≠ '.' := by
    cases hexponent with
    | none =>
      intro c hc
      refine ⟨hrest.isDigit_eq_false c hc, ?_⟩
      rintro rfl
      cases hrest '.' hc
    | power =>
      rintro c ⟨⟩
      exact ⟨rfl, nofun⟩
  have hbehind' : ∀ c ∈ (fraction ++ (exponent ++ rest)).head?, c.isDigit = false := by
    cases hfraction with
    | none => exact fun c hc => (hbehind c hc).1
    | point =>
      rintro c ⟨⟩
      rfl
  simp only [number?, List.append_assoc, sign_append negative hwhole.1,
    whole?_append hwhole hbehind', fraction?_append hfraction hbehind,
    exponent?_append hexponent hrest, Option.bind_eq_bind, Option.bind_some]

end

/-! ## Written parts -/

theorem isDigits_toDigits (n : Nat) : IsDigits (Nat.toDigits 10 n) :=
  ⟨Nat.toDigits_ne_nil, fun _ hc => Nat.isDigit_of_mem_toDigits (by decide) (by decide) hc⟩

theorem head?_toDigits_ne_zero {n : Nat} (h : n ≠ 0) : (Nat.toDigits 10 n).head? ≠ some '0' := by
  induction n using Nat.strong_induction_on with
  | h n ih =>
    rcases Nat.lt_or_ge n 10 with hn | hn
    · rw [Nat.toDigits_of_lt_base hn]
      have hdigit : ∀ d < 10, d ≠ 0 → Nat.digitChar d ≠ '0' := by decide
      simpa using hdigit n hn h
    · rw [Nat.toDigits_of_base_le (by decide) hn, List.head?_append_of_ne_nil _ Nat.toDigits_ne_nil]
      exact ih (n / 10) (by omega) (by omega)

theorem isWhole_toDigits (n : Nat) : IsWhole (Nat.toDigits 10 n) := by
  refine ⟨isDigits_toDigits n, fun d more heq => ?_⟩
  by_cases h : n = 0
  · subst h
    cases heq
  · exact head?_toDigits_ne_zero h (by rw [heq]; rfl)

end Json

namespace Decimal

open Json

theorem isFraction_fractionSpelling {ds : List Char} (h : ∀ c ∈ ds, c.isDigit = true) :
    IsFraction (fractionSpelling ds) := by
  unfold fractionSpelling
  split
  · exact .none
  · rename_i hne
    exact .point ⟨hne, fun c hc => isDigit_of_mem_dropClosingZeros hc h⟩

theorem exists_positional_eq (d : Decimal) :
    ∃ whole fraction, d.positional = whole ++ fraction ∧ IsWhole whole ∧ IsFraction fraction := by
  obtain ⟨digits, places | k⟩ := d
  · exact ⟨_, [], (List.append_nil _).symm, isWhole_toDigits _, .none⟩
  · exact ⟨_, _, positional_negSucc digits k, isWhole_toDigits _,
      isFraction_fractionSpelling fun c hc => isDigit_of_mem_lastDigits hc⟩

theorem isUnsigned_withPoint (d : Decimal) : IsUnsigned d.withPoint := by
  obtain ⟨whole, fraction, hpositional, hwhole, hfraction⟩ := d.exists_positional_eq
  simp only [withPoint, hpositional]
  cases hfraction with
  | none =>
    have hpoint : ¬ (whole ++ []).contains '.' = true := by
      rw [List.append_nil, List.contains_iff_mem]
      intro hmem
      cases hwhole.1.2 '.' hmem
    rw [if_neg hpoint, List.append_nil]
    have hparts := IsUnsigned.parts hwhole (.point (isDigits_toDigits 0)) .none
    rwa [List.append_nil] at hparts
  | point hds =>
    have hparts := IsUnsigned.parts hwhole (.point hds) .none
    rw [List.append_nil] at hparts
    rwa [if_pos (by simp)]

theorem isUnsigned_exponential (d : Decimal) : IsUnsigned d.exponential := by
  have hdigits := isDigits_toDigits d.digits
  obtain ⟨lead, more, heq⟩ := List.exists_cons_of_ne_nil hdigits.1
  rw [heq] at hdigits
  have hlead : IsWhole [lead] := by
    refine ⟨⟨List.cons_ne_nil _ _, fun c hc => ?_⟩, nofun⟩
    rw [List.mem_singleton.mp hc]
    exact hdigits.2 lead List.mem_cons_self
  have hfraction : IsFraction (fractionSpelling more) :=
    isFraction_fractionSpelling fun c hc => hdigits.2 c (List.mem_cons_of_mem _ hc)
  have hsign : ∀ power : Int, (if power < 0 then '-' else '+') = '+' ∨
      (if power < 0 then '-' else '+') = '-' := by
    intro power
    split
    · exact .inr rfl
    · exact .inl rfl
  simp only [exponential, heq]
  exact .parts hlead hfraction (.power (hsign _) (isDigits_toDigits _))

end Decimal

namespace Number

open Json

/-- **The spelling of a finite number is read as one number.** -/
theorem isNumeral_jsonSpelling (negative : Bool) (a : Magnitude) :
    IsNumeral (jsonSpelling negative a) := by
  let d := a.shortest .even
  have hunsigned : IsUnsigned
      (if a.rank = 0 ∨ (-5 ≤ d.leadExponent ∧ d.leadExponent < 16) then d.withPoint
        else d.exponential) := by
    split
    · exact d.isUnsigned_withPoint
    · exact d.isUnsigned_exponential
  have hnumeral := hunsigned.isNumeral negative
  unfold jsonSpelling
  cases negative <;> exact hnumeral

end Number

end InfixCalc
