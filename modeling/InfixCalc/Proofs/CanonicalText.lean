import InfixCalc.Proofs.Numerals
import InfixCalc.Proofs.Shortest
import InfixCalc.Proofs.Spelling
/-!
# The canonical text of a number

A number is written in one way, from which its bit pattern is read back. Its text has a spelling that the
scan takes as one token, which is converted to itself. So the conversion does not tell a literal from the
canonical text of its number, and that of the canonical text is no other.

Main statements: `Decimal.isCanonical_positional`, `Lexeme.tokenize_number`,
`Postfix.ofLexemes_canonical` and `text_stable`.
-/

namespace InfixCalc

/-! ## Bit patterns -/

namespace Number

/-- Only for not-a-number the bit pattern is not kept. -/
theorem toBits_ofBits {bits : Nat} (hbits : bits < 2 ^ 64) (h : (ofBits bits).isNaN = false) :
    (ofBits bits).toBits = bits := by
  have hsign : signBit (bits / 2 ^ 63 % 2 == 1) + bits % 2 ^ 63 = bits := by
    have hbit : bits / 2 ^ 63 % 2 = bits / 2 ^ 63 := Nat.mod_eq_of_lt (by omega)
    rw [hbit]
    by_cases hone : bits / 2 ^ 63 = 1
    · simp only [hone, signBit, beq_self_eq_true, if_true]
      omega
    · have hzero : bits / 2 ^ 63 = 0 := by omega
      simp only [hzero, signBit]
      show 0 + _ = _
      omega
  unfold ofBits at *
  dsimp only at *
  split
  · exact hsign
  split
  · rename_i hrank
    rw [toBits, ← hrank, hsign]
  · rename_i hfinite hinfinite
    rw [dif_neg hfinite, if_neg hinfinite] at h
    cases h

theorem quiet_eq_self {v : Number} (h : v.isNaN = false) : v.quiet = v := by
  cases v with
  | nan _ => cases h
  | infinite _ | finite _ _ => rfl

end Number

/-! ## The spelling -/

/-- A canonical spelling without its sign: no zero in front of other digits, none at the end of a
fraction, and no exponent. -/
inductive IsCanonical : List Char → Prop
  | whole {ds : List Char} : Json.IsWhole ds → IsCanonical ds
  | fraction {ds fraction : List Char} : Json.IsWhole ds → Json.IsDigits fraction →
    fraction.getLast? ≠ some '0' → IsCanonical (ds ++ '.' :: fraction)

namespace Decimal

theorem getLast?_dropClosingZeros (digits : List Char) :
    (dropClosingZeros digits).getLast? ≠ some '0' := by
  intro h
  rw [dropClosingZeros, List.getLast?_reverse] at h
  have := List.head?_dropWhile_not (· == '0') digits.reverse
  simp [h] at this

theorem isCanonical_positional (d : Decimal) : IsCanonical d.positional := by
  obtain ⟨digits, places | k⟩ := d
  · exact .whole (Json.isWhole_toDigits _)
  · rw [positional_negSucc, fractionSpelling]
    have hdigits : ∀ c ∈ dropClosingZeros (lastDigits (k + 1) digits), c.isDigit = true :=
      fun c hc => isDigit_of_mem_dropClosingZeros hc fun c hc => isDigit_of_mem_lastDigits hc
    split
    · rw [List.append_nil]
      exact .whole (Json.isWhole_toDigits _)
    · rename_i hne
      exact .fraction (Json.isWhole_toDigits _) ⟨hne, hdigits⟩ (getLast?_dropClosingZeros _)

end Decimal

/-- The text of a finite number is canonical. -/
theorem Number.exists_spelling (negative : Bool) (a : Magnitude) :
    ∃ spelling, IsCanonical spelling ∧
      (finite negative a).text.toList = (if negative then ['-'] else []) ++ spelling := by
  refine ⟨_, (a.shortest .up).isCanonical_positional, ?_⟩
  rw [toList_text_finite]
  cases negative <;> rfl

/-! ## The token -/

/-- A run of digits and points is one token, which covers all of it. -/
theorem Lexeme.tokenize_number {text : String} (h : (Token.number text).IsSpelled) :
    tokenize text = .ok [⟨.number text, ⟨0, text.utf8ByteSize⟩⟩] := by
  have hscan : scan text = [⟨.number text, ⟨0, text.utf8ByteSize⟩⟩] := by
    have hrun : scanFrom 0 (text.toList ++ []) = _ := scanFrom_text h (fun _ => by simp [Parted]) 0
    rw [List.append_nil, Nat.zero_add] at hrun
    rw [← Span.byteSize_toList]
    exact hrun
  refine tokenize_eq_ok_iff.mpr ⟨hscan.symm, fun c => ?_⟩
  rw [Token.ofSource, hscan]
  simp

/-- Without a sign a canonical text consists of digits and at most one point. -/
theorem Number.isSpelled_text (a : Magnitude) : (Token.number (finite false a).text).IsSpelled := by
  have htext : (finite false a).text.toList = (a.shortest .up).positional := toList_text_finite false a
  refine ⟨fun hempty => ?_, ?_⟩
  · obtain ⟨c, cs, hcons, -⟩ := (a.shortest .up).positional_eq_cons
    rw [hempty, hcons] at htext
    cases htext
  · rw [htext, List.all_eq_true]
    exact fun c hc => isNumeral_of_mem_positional hc

/-! ## The conversion -/

/-- A number in its canonical text. What is not read as a number is left as it is. -/
def Token.canonical : Token → Token
  | .number text => match Number.ofText? text with
    | some v => .number v.text
    | none => .number text
  | token => token

def Lexeme.canonical (lexeme : Lexeme) : Lexeme := ⟨lexeme.token.canonical, lexeme.span⟩

/-- The text of a number that has been read is read as the same number. -/
theorem Number.ofText?_text_of_ofText? {text : String} {v : Number} (h : ofText? text = some v) :
    ofText? v.text = some v := by
  rw [ofText?_text, quiet_of_ofText? h]

namespace Postfix

theorem step_canonical (stack : List Pending) (lexeme : Lexeme) :
    step stack lexeme.canonical = step stack lexeme := by
  obtain ⟨token, span⟩ := lexeme
  cases token with
  | number text =>
    cases hread : Number.ofText? text with
    | none => simp [Lexeme.canonical, Token.canonical, hread]
    | some v =>
      simp [step, Lexeme.canonical, Token.canonical, hread, Number.ofText?_text_of_ofText? hread]
  | operator _ | opening | closing | unknown _ => rfl

theorem feed_canonical (stack : List Pending) (lexemes : List Lexeme) :
    feed stack (lexemes.map Lexeme.canonical) = feed stack lexemes := by
  induction lexemes generalizing stack with
  | nil => rfl
  | cons lexeme lexemes ih =>
    simp only [List.map_cons, feed, step_canonical, ih]

/-- **The conversion does not tell a literal from the canonical text of its number.** -/
theorem ofLexemes_canonical (lexemes : List Lexeme) :
    ofLexemes (lexemes.map Lexeme.canonical) = ofLexemes lexemes := by
  rw [ofLexemes, feed_canonical, ofLexemes]

/-- A literal alone is converted to the canonical text of its number. -/
theorem ofLexemes_number_eq_ok_iff {literal : String} {span : Span} {words : List String} :
    ofLexemes [⟨.number literal, span⟩] = .ok words ↔
      ∃ v, Number.ofText? literal = some v ∧ words = [v.text] := by
  cases hread : Number.ofText? literal with
  | none => simp [ofLexemes, feed, step, hread]
  | some v => simp [ofLexemes, feed, step, drain, hread, Except.map, eq_comm]

end Postfix

open Number Postfix

/-- **Canonical numbers are stable.** Every bit pattern but those of not-a-number is read back from the text
of its number, so that no two of them have one text. The text of a finite number is a sign, if it is
negative, and a canonical spelling. Without a sign it is scanned as one token, which covers it, and
converted to itself. So a literal that the conversion accepts is converted to a text that is converted to
itself, and lexemes are converted alike if all their numbers are written in canonical text. What is read is
the one correctly rounded value, and what is written the shortest decimal that is read as the number. -/
theorem text_stable :
    (∀ bits < 2 ^ 64, (ofBits bits).isNaN = false →
      ∃ v, ofText? (ofBits bits).text = some v ∧ v.toBits = bits) ∧
    (∀ bits < 2 ^ 64, ∀ bits' < 2 ^ 64, (ofBits bits).isNaN = false → (ofBits bits').isNaN = false →
      (ofBits bits).text = (ofBits bits').text → bits = bits') ∧
    (∀ (negative : Bool) (a : Magnitude), ∃ spelling, IsCanonical spelling ∧
      (finite negative a).text.toList = (if negative then ['-'] else []) ++ spelling) ∧
    (∀ a : Magnitude, let text := (finite false a).text
      Lexeme.tokenize text = .ok [⟨.number text, ⟨0, text.utf8ByteSize⟩⟩] ∧
        ofLexemes [⟨.number text, ⟨0, text.utf8ByteSize⟩⟩] = .ok [text]) ∧
    (∀ (literal : String) (span : Span) (words : List String),
      ofLexemes [⟨.number literal, span⟩] = .ok words →
      ∃ text, words = [text] ∧ ofLexemes [⟨.number text, span⟩] = .ok [text]) ∧
    (∀ lexemes : List Lexeme, ofLexemes (lexemes.map Lexeme.canonical) = ofLexemes lexemes) ∧
    (∀ (negative : Bool) (cs : List Char) (d : Decimal), Decimal.ofChars? cs = some d →
      ∃ v, ofUnsigned? negative cs = some v ∧ ∀ w, IsRounding d.value negative w ↔ v = w) ∧
    ∀ a : Magnitude, a.IsShortest (a.shortest .up) := by
  have hread {bits : Nat} (h : (ofBits bits).isNaN = false) :
      ofText? (ofBits bits).text = some (ofBits bits) := by
    rw [ofText?_text, quiet_eq_self h]
  refine ⟨fun bits hbits h => ⟨_, hread h, toBits_ofBits hbits h⟩, ?_, exists_spelling, ?_, ?_,
    ofLexemes_canonical, ?_, Magnitude.isShortest_shortest .up⟩
  · intro bits hbits bits' hbits' h h' htext
    have hnumber : ofBits bits = ofBits bits' := by
      rw [← Option.some_inj, ← hread h, ← hread h', htext]
    rw [← toBits_ofBits hbits h, ← toBits_ofBits hbits' h', hnumber]
  · intro a text
    exact ⟨Lexeme.tokenize_number (isSpelled_text a),
      ofLexemes_number_eq_ok_iff.mpr ⟨_, ofText?_text _, rfl⟩⟩
  · intro literal span words h
    obtain ⟨v, hliteral, rfl⟩ := ofLexemes_number_eq_ok_iff.mp h
    exact ⟨_, rfl, ofLexemes_number_eq_ok_iff.mpr ⟨v, ofText?_text_of_ofText? hliteral, rfl⟩⟩
  · intro negative cs d hd
    exact ⟨_, by rw [ofUnsigned?, hd], fun w => d.toNumber_eq_iff.symm⟩

/-- The negative zero, the least number, the largest finite one and both infinities; a literal with
superfluous zeros; and one half-way between two numbers. -/
theorem text_stable_extremes :
    (ofBits (2 ^ 63)).text = "-0" ∧ (ofBits 0).text ≠ (ofBits (2 ^ 63)).text ∧
    (∀ bits ∈ [2 ^ 63, 1, 2047 * 2 ^ 52 - 1, 2047 * 2 ^ 52, 2 ^ 63 + 2047 * 2 ^ 52],
      ∃ v, ofText? (ofBits bits).text = some v ∧ v.toBits = bits) ∧
    ofLexemes [⟨.number "007.50", ⟨0, 6⟩⟩] = .ok ["7.5"] ∧
    ofLexemes [⟨.number "7.5", ⟨0, 6⟩⟩] = .ok ["7.5"] ∧
    ∃ v, ofUnsigned? false "9007199254740993".toList = some v ∧
      ∀ w, IsRounding 9007199254740993 false w ↔ v = w := by
  obtain ⟨hround, hinjective, -, -, hliteral, -, hrounding, -⟩ := text_stable
  have hwords : ofLexemes [⟨.number "007.50", ⟨0, 6⟩⟩] = .ok ["7.5"] := by decide +kernel
  obtain ⟨text, htext, hagain⟩ := hliteral _ _ _ hwords
  cases htext
  obtain ⟨v, hv, hnear⟩ := hrounding false "9007199254740993".toList ⟨9007199254740993, 0⟩
    (by decide +kernel)
  refine ⟨by decide +kernel, fun heq => ?_, fun bits hmem => ?_, hwords, hagain, v, hv, ?_⟩
  · exact absurd (hinjective 0 (by decide) (2 ^ 63) (by decide) rfl rfl heq) (by decide)
  · have hall : [2 ^ 63, 1, 2047 * 2 ^ 52 - 1, 2047 * 2 ^ 52, 2 ^ 63 + 2047 * 2 ^ 52].all
        (fun bits => bits < 2 ^ 64 && !(ofBits bits).isNaN) = true := by decide +kernel
    have hbits := List.all_eq_true.mp hall bits hmem
    simp only [Bool.and_eq_true, decide_eq_true_eq, Bool.not_eq_true'] at hbits
    exact hround bits hbits.1 hbits.2
  · simpa [Decimal.value] using hnear

end InfixCalc
