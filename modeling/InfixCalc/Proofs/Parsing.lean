import InfixCalc.Parsing
import InfixCalc.Proofs.Building
import InfixCalc.Proofs.Phrases
import InfixCalc.Proofs.Scanning
/-!
# Parsing expressions

A source text whose tokens are an infix expression is parsed into the tree of that expression. Of any
other text that is parsed we still know that its parentheses are balanced and that it has one number
more than operators.

Main statements:

* `Derives.parse_eq`, `Derives.ofSource_eq`: what an expression is parsed into;
* `Expr.numbers_of_parse`, `Expr.openGroups?_of_parse`, `Expr.readable_of_parse`: what is known of any text
  that is parsed;
* `Expr.ofSource_of_parse`: the postfix words of its source are those of the tree.
-/

namespace InfixCalc

/-! ## The stages -/

theorem Postfix.ofSource_eq_ok_iff {source : String} {words : List String} :
    ofSource source = .ok words ↔
      (∀ c, .unknown c ∉ Token.ofSource source) ∧
        ofLexemes (Lexeme.scan source) = .ok words := by
  rw [ofSource, Except.bind_eq_ok_iff]
  constructor
  · rintro ⟨lexemes, htokens, h⟩
    obtain ⟨rfl, hknown⟩ := Lexeme.tokenize_eq_ok_iff.mp htokens
    exact ⟨hknown, h⟩
  · rintro ⟨hknown, h⟩
    exact ⟨_, Lexeme.tokenize_eq_ok_iff.mpr ⟨rfl, hknown⟩, h⟩

theorem Expr.parse_eq_ok_iff {source : String} {t : Expr} :
    parse source = .ok t ↔
      ∃ words, Postfix.ofSource source = .ok words ∧ Postfix.toTree words = .ok t :=
  Except.bind_eq_ok_iff

theorem Expr.parse_eq_of_ofSource {source : String} {words : List String}
    (h : Postfix.ofSource source = .ok words) : parse source = Postfix.toTree words := by
  rw [parse, h]
  rfl

/-! ## Expressions -/

namespace Derives

variable {l : Level} {ts : List Token} {t : Expr}

/-- A tree that is read has no signaling not-a-number. -/
theorem quiet_eq (h : Derives l ts t) : t.quiet = t := by
  induction h with
  | sum _ _ _ ih₁ ih₂ | product _ _ _ ih₁ ih₂ | power _ _ ih₁ ih₂ => simp [Expr.quiet, ih₁, ih₂]
  | ofProduct _ ih | ofPower _ ih | ofPrimary _ ih | group _ ih => exact ih
  | number hread => simp [Expr.quiet, Number.quiet_of_ofText? hread]

theorem toTree_eq (h : Derives l ts t) : Postfix.toTree t.postfixWords = Postfix.limited t := by
  rw [Postfix.toTree_postfixWords, h.quiet_eq]

theorem ofSource_eq {source : String} (h : Derives .sum (Token.ofSource source) t) :
    Postfix.ofSource source = .ok t.postfixWords :=
  Postfix.ofSource_eq_ok_iff.mpr ⟨h.isInfix.unknown_not_mem, h.ofLexemes_eq rfl⟩

theorem parse_eq {source : String} (h : Derives .sum (Token.ofSource source) t) :
    Expr.parse source = Postfix.limited t := by
  rw [Expr.parse_eq_of_ofSource h.ofSource_eq, h.toTree_eq]

end Derives

/-- **Parsing is correct.** An expression with tree `t` is converted into the postfix words of `t`,
wherever its lexemes stand; these words build `t`, unless it is too high; and so does every source text
with the tokens of the expression. -/
theorem parse_correct {ts : List Token} {t : Expr} (h : Derives .sum ts t) :
    (∀ lexemes : List Lexeme, lexemes.map (·.token) = ts →
      Postfix.ofLexemes lexemes = .ok t.postfixWords) ∧
    Postfix.toTree t.postfixWords =
      (if t.height ≤ Postfix.maxHeight then .ok t else .error (.tooDeep Postfix.maxHeight)) ∧
    ∀ source, Token.ofSource source = ts →
      Expr.parse source =
        if t.height ≤ Postfix.maxHeight then .ok t else .error (.tooDeep Postfix.maxHeight) := by
  refine ⟨fun lexemes hts => h.ofLexemes_eq hts, h.toTree_eq, ?_⟩
  rintro source rfl
  exact h.parse_eq

/-- Powers group to the right and differences to the left. -/
theorem parse_correct_powers_and_differences :
    let leaf (bits : Nat) : Expr := .number (.ofBits bits)
    let difference := Expr.binary .subtract
      (.binary .subtract (leaf 0x3ff0000000000000) (leaf 0x3fe0000000000000)) (leaf 0x4010000000000000)
    let t := Expr.binary .power (leaf 0x4000000000000000)
      (.binary .power (leaf 0x4008000000000000) difference)
    t.postfixWords = ["2", "3", "1", "0.5", "-", "4", "-", "^", "^"] ∧
      Expr.parse "2 ^ 3 ^ (1 - .5 - 4)" = .ok t := by
  intro leaf difference t
  have one : Derives .primary [.number "1"] (leaf 0x3ff0000000000000) := .number (by decide +kernel)
  have two : Derives .primary [.number "2"] (leaf 0x4000000000000000) := .number (by decide +kernel)
  have three : Derives .primary [.number "3"] (leaf 0x4008000000000000) := .number (by decide +kernel)
  have four : Derives .primary [.number "4"] (leaf 0x4010000000000000) := .number (by decide +kernel)
  have half : Derives .primary [.number ".5"] (leaf 0x3fe0000000000000) := .number (by decide +kernel)
  have hdifference : Derives .sum ([.number "1"] ++ .operator .subtract :: [.number ".5"] ++
      .operator .subtract :: [.number "4"]) difference :=
    .sum (.inr rfl) (.sum (.inr rfl) (one.ofPrimaryAt _) (half.ofPrimaryAt _)) (four.ofPrimaryAt _)
  have ht := Derives.power two (.power three (.ofPrimary (.group hdifference)))
  have hparse := (parse_correct (.ofProduct (.ofPower ht))).2.2 "2 ^ 3 ^ (1 - .5 - 4)"
    (by decide +kernel)
  exact ⟨by decide +kernel, hparse.trans (if_pos (by decide))⟩

/-! ## Numbers and operators -/

/-- The words of readable tokens are its numbers and operators. -/
theorem Readable.count_words {ts : List Token} (h : Readable ts) :
    (ts.filterMap Token.word?).countP Postfix.isNumeric = ts.countP Token.isNumber ∧
      (ts.filterMap Token.word?).length =
        ts.countP Token.isNumber + ts.countP Token.isOperator := by
  induction ts with
  | nil => exact ⟨rfl, rfl⟩
  | cons token ts ih =>
    obtain ⟨hnumbers, hlength⟩ := ih fun text hmem => h text (List.mem_cons_of_mem _ hmem)
    have hread : ∀ text, token = .number text → ∃ v, Number.ofText? text = some v := by
      rintro text rfl
      exact h text List.mem_cons_self
    simp only [List.filterMap_cons, List.countP_cons]
    cases token with
    | number text =>
      obtain ⟨v, hv⟩ := hread text rfl
      simp [Token.word?, hv, Token.isNumber, Token.isOperator, hnumbers, hlength]
      omega
    | operator op =>
      simp [Token.word?, Token.isNumber, Token.isOperator, hnumbers, hlength]
      omega
    | _ => simp [Token.word?, Token.isNumber, Token.isOperator, hnumbers, hlength]

namespace Expr

variable {source : String} {t : Expr}

theorem readable_of_parse (h : parse source = .ok t) : Readable (Token.ofSource source) := by
  obtain ⟨words, hwords, -⟩ := parse_eq_ok_iff.mp h
  exact Postfix.readable_of_ofLexemes (Postfix.ofSource_eq_ok_iff.mp hwords).2

theorem openGroups?_of_parse (h : parse source = .ok t) :
    openGroups? 0 (Token.ofSource source) = some 0 := by
  obtain ⟨words, hwords, -⟩ := parse_eq_ok_iff.mp h
  exact Postfix.openGroups?_of_ofLexemes (Postfix.ofSource_eq_ok_iff.mp hwords).2

/-- **A text that is parsed has one number more than operators.** -/
theorem numbers_of_parse (h : parse source = .ok t) :
    (Token.ofSource source).countP Token.isNumber =
      (Token.ofSource source).countP Token.isOperator + 1 := by
  obtain ⟨words, hwords, htree⟩ := parse_eq_ok_iff.mp h
  have hperm := Postfix.perm_of_ofLexemes (Postfix.ofSource_eq_ok_iff.mp hwords).2
  have hcount := Postfix.length_of_toTree htree
  obtain ⟨hnumbers, hlength⟩ := (readable_of_parse h).count_words
  change words.Perm ((Token.ofSource source).filterMap Token.word?) at hperm
  rw [hperm.length_eq, hperm.countP_eq, hnumbers, hlength] at hcount
  omega

end Expr

/-! ## Words of a source text -/

namespace Postfix

theorem canonical_word {token : Token} {word : String} (h : token.word? = some word) :
    canonical word = word := by
  cases token with
  | number text =>
    obtain ⟨v, -, rfl⟩ := Option.map_eq_some_iff.mp h
    rw [canonical_of_ofText? (Number.ofText?_text v), Number.text_quiet]
  | operator op =>
    cases h
    exact canonical_of_ofText?_none (Number.ofText?_operatorText op)
  | _ => cases h

/-- The numbers among the words of a source text are canonical. -/
theorem map_canonical_of_ofLexemes {lexemes : List Lexeme} {words : List String}
    (h : ofLexemes lexemes = .ok words) : words.map canonical = words := by
  have hcanonical : ∀ word ∈ words, canonical word = id word := by
    intro word hmem
    obtain ⟨token, -, hword⟩ := List.mem_filterMap.mp ((perm_of_ofLexemes h).mem_iff.mp hmem)
    exact canonical_word hword
  rw [List.map_congr_left hcanonical, List.map_id]

end Postfix

/-- A tree that was parsed has the postfix words of its source. -/
theorem Expr.ofSource_of_parse {source : String} {t : Expr} (h : parse source = .ok t) :
    Postfix.ofSource source = .ok t.postfixWords := by
  obtain ⟨words, hwords, htree⟩ := parse_eq_ok_iff.mp h
  rw [hwords, Postfix.postfixWords_of_toTree htree,
    Postfix.map_canonical_of_ofLexemes (Postfix.ofSource_eq_ok_iff.mp hwords).2]

end InfixCalc
