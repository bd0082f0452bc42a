import InfixCalc.Proofs.InfixText
import InfixCalc.Proofs.Partition
/-!
# What a parsed tree is made of

The leaves of a tree are the numbers of its source in their order, and its operators are those of the
source. This does not depend on the source being an infix expression: the conversion passes the numbers
on in order and loses no operator, and the building of the tree keeps every word.

Main statement: `contents_of_parse`.
-/

namespace InfixCalc

namespace Token

def numberText? : Token → Option String
  | number text => some text
  | _ => none

def operator? : Token → Option Operator
  | operator op => some op
  | _ => none

def isParenthesis : Token → Bool
  | opening | closing => true
  | _ => false

end Token

namespace Expr

/-- The operators of a tree, each behind those of its operands. -/
def operators : Expr → List Operator
  | number _ => []
  | binary op l r => l.operators ++ r.operators ++ [op]

/-! ## The words of a tree -/

theorem length_postfixWords (t : Expr) : t.postfixWords.length = t.size := by
  induction t with
  | number v => rfl
  | binary op l r ihl ihr =>
    simp [postfixWords, size, ihl, ihr]
    omega

end Expr

theorem Operator.ofText?_numberText (v : Number) : ofText? v.text = none := by
  cases hop : ofText? v.text with
  | none => rfl
  | some op =>
    have hread := Number.ofText?_operatorText op
    rw [text_of_ofText? hop, Number.ofText?_text] at hread
    cases hread

namespace Expr

theorem filterMap_ofText?_postfixWords (t : Expr) :
    t.postfixWords.filterMap Number.ofText? = t.quiet.leaves := by
  induction t with
  | number v => simp [postfixWords, quiet, leaves, Number.ofText?_text]
  | binary op l r ihl ihr =>
    simp [postfixWords, quiet, leaves, ihl, ihr, Number.ofText?_operatorText]

theorem filterMap_operator_postfixWords (t : Expr) :
    t.postfixWords.filterMap Operator.ofText? = t.operators := by
  induction t with
  | number v => simp [postfixWords, operators, Operator.ofText?_numberText]
  | binary op l r ihl ihr => simp [postfixWords, operators, ihl, ihr, Operator.ofText?_text]

end Expr

/-! ## The words of the tokens -/

namespace Postfix

theorem filterMap_ofText?_map_text (ops : List Operator) :
    (ops.map Operator.text).filterMap Number.ofText? = [] := by
  simp [Number.ofText?_operatorText]

/-- A step passes on the value of the number that it reads, and no other. -/
theorem Moves.numbers {stack next : List Pending} {token : Token} {words : List String}
    (h : Moves stack token words next) :
    (words.filterMap Number.ofText?).map some = token.numberText?.toList.map Number.ofText? := by
  cases h with
  | number hread =>
    simp [Token.numberText?, Number.ofText?_text, hread, Number.quiet_of_ofText? hread]
  | operator _ | closing _ => rw [filterMap_ofText?_map_text]; rfl
  | opening _ => rfl

theorem numbers_of_feed {stack last : List Pending} {lexemes : List Lexeme} {words : List String}
    (h : feed stack lexemes = .ok (words, last)) :
    (words.filterMap Number.ofText?).map some =
      ((lexemes.map (·.token)).filterMap Token.numberText?).map Number.ofText? := by
  refine feed_induction (P := fun _ tokens words _ => (words.filterMap Number.ofText?).map some =
    (tokens.filterMap Token.numberText?).map Number.ofText?) (fun _ => rfl) ?_ h
  intro stack token words next tokens words' last hmove ih
  have hfirst : (token :: tokens).filterMap Token.numberText? =
      token.numberText?.toList ++ tokens.filterMap Token.numberText? := by
    cases htext : token.numberText? <;> simp [htext]
  rw [List.filterMap_append, List.map_append, hmove.numbers, ih, hfirst, List.map_append]

/-- **The conversion keeps the numbers in their order.** -/
theorem numbers_of_ofLexemes {lexemes : List Lexeme} {words : List String}
    (h : ofLexemes lexemes = .ok words) :
    (words.filterMap Number.ofText?).map some =
      ((lexemes.map (·.token)).filterMap Token.numberText?).map Number.ofText? := by
  obtain ⟨passed, ops, hfeed, rfl⟩ := ofLexemes_eq_ok_iff.mp h
  rw [List.filterMap_append, filterMap_ofText?_map_text, List.append_nil, numbers_of_feed hfeed]

theorem operator_word (token : Token) : token.word?.bind Operator.ofText? = token.operator? := by
  cases token with
  | number text =>
    cases hread : Number.ofText? text <;>
      simp [Token.word?, Token.operator?, hread, Operator.ofText?_numberText]
  | operator op => exact Operator.ofText?_text op
  | opening | closing | unknown _ => rfl

/-- The conversion keeps the operators, in some order. -/
theorem operators_of_ofLexemes {lexemes : List Lexeme} {words : List String}
    (h : ofLexemes lexemes = .ok words) :
    (words.filterMap Operator.ofText?).Perm
      ((lexemes.map (·.token)).filterMap Token.operator?) := by
  have hperm := (perm_of_ofLexemes h).filterMap Operator.ofText?
  rw [List.filterMap_filterMap] at hperm
  simpa only [operator_word] using hperm

end Postfix

/-- What is no parenthesis is a number or an operator, if nothing is unknown. -/
theorem Token.countP_not_isParenthesis {ts : List Token} (h : ∀ c, .unknown c ∉ ts) :
    ts.countP (fun token => !token.isParenthesis) =
      ts.countP Token.isNumber + ts.countP Token.isOperator := by
  induction ts with
  | nil => rfl
  | cons token ts ih =>
    have hrest := ih fun c hmem => h c (List.mem_cons_of_mem _ hmem)
    have hone : (if (!token.isParenthesis) = true then 1 else 0) =
        (if token.isNumber = true then 1 else 0) + if token.isOperator = true then 1 else 0 := by
      cases token with
      | unknown c => exact absurd List.mem_cons_self (h c)
      | _ => rfl
    rw [List.countP_cons, List.countP_cons, List.countP_cons, hrest, hone]
    omega

/-! ## Numbers of a source text -/

namespace Number

theorem isNaN_nearest (negative : Bool) (num den : Nat) :
    (nearest negative num den).isNaN = false := by
  unfold nearest
  dsimp only
  split <;> rfl

theorem toLower_of_isNumeral {c : Char} (h : Token.isNumeral c = true) : c.toLower = c := by
  have hsmall : c.val < 'A'.val := by
    simp only [Token.isNumeral, Char.isDigit, Bool.or_eq_true, Bool.and_eq_true,
      decide_eq_true_eq, beq_iff_eq] at h
    rcases h with ⟨-, h⟩ | rfl
    · exact UInt32.lt_of_le_of_lt h (by decide)
    · decide
  exact dif_neg fun hupper => absurd hsmall (UInt32.not_lt.mpr hupper.1)

/-- No word is made of digits and points. -/
theorem ofWord?_of_numerals {cs : List Char} (h : ∀ c ∈ cs, Token.isNumeral c = true)
    (negative : Bool) : ofWord? negative cs = none := by
  have hlower : cs.map Char.toLower = cs := by
    simpa using List.map_congr_left fun c hc => toLower_of_isNumeral (h c hc)
  have hne : ∀ word : String, (∃ c ∈ word.toList, Token.isNumeral c = false) →
      String.ofList cs ≠ word := by
    rintro word ⟨c, hc, hnot⟩ rfl
    rw [h c (by simpa using hc)] at hnot
    cases hnot
  have hnan := hne "nan" ⟨'n', by decide, by decide⟩
  have hinf := hne "inf" ⟨'n', by decide, by decide⟩
  have hinfinity := hne "infinity" ⟨'n', by decide, by decide⟩
  simp [ofWord?, hlower, hnan, hinf, hinfinity]

/-- Digits and points are never read as not-a-number. -/
theorem isNaN_of_ofText?_numerals {text : String} {v : Number}
    (h : ∀ c ∈ text.toList, Token.isNumeral c = true) (hread : ofText? text = some v) :
    v.isNaN = false := by
  have hunsigned : ofUnsigned? false text.toList = some v := by
    unfold ofText? ofChars? at hread
    split at hread
    · exact absurd (h '-' (by simp_all)) (by decide)
    · exact absurd (h '+' (by simp_all)) (by decide)
    · exact hread
  unfold ofUnsigned? at hunsigned
  split at hunsigned
  · cases hunsigned
    rw [Decimal.toNumber_eq_nearest, isNaN_nearest]
  · rw [ofWord?_of_numerals h] at hunsigned
    cases hunsigned

end Number

/-! ## The whole tree -/

namespace Expr

variable {source : String} {t : Expr}

/-- A tree that was parsed is the one that its postfix words build. -/
theorem quiet_of_parse (h : parse source = .ok t) :
    t.quiet = t ∧ t.height ≤ Postfix.maxHeight := by
  have htree : Postfix.toTree t.postfixWords = .ok t := parse_eq_of_ofSource (ofSource_of_parse h) ▸ h
  rw [Postfix.toTree_postfixWords, Postfix.limited, height_quiet] at htree
  split at htree
  · exact ⟨Except.ok.inj htree, ‹_›⟩
  · cases htree

theorem leaves_of_parse (h : parse source = .ok t) :
    t.leaves.map some =
      ((Token.ofSource source).filterMap Token.numberText?).map Number.ofText? := by
  have hwords := (Postfix.ofSource_eq_ok_iff.mp (ofSource_of_parse h)).2
  have hnumbers := Postfix.numbers_of_ofLexemes hwords
  rwa [filterMap_ofText?_postfixWords, (quiet_of_parse h).1] at hnumbers

theorem operators_of_parse (h : parse source = .ok t) :
    t.operators.Perm ((Token.ofSource source).filterMap Token.operator?) := by
  have hwords := (Postfix.ofSource_eq_ok_iff.mp (ofSource_of_parse h)).2
  have hoperators := Postfix.operators_of_ofLexemes hwords
  rwa [filterMap_operator_postfixWords] at hoperators

theorem size_of_parse (h : parse source = .ok t) :
    t.size = (Token.ofSource source).countP fun token => !token.isParenthesis := by
  obtain ⟨hknown, hwords⟩ := Postfix.ofSource_eq_ok_iff.mp (ofSource_of_parse h)
  calc
    t.size = t.postfixWords.length := t.length_postfixWords.symm
    _ = ((Token.ofSource source).filterMap Token.word?).length :=
      (Postfix.perm_of_ofLexemes hwords).length_eq
    _ = (Token.ofSource source).countP fun token => !token.isParenthesis := by
      rw [(readable_of_parse h).count_words.2, Token.countP_not_isParenthesis hknown]

theorem isNaN_of_mem_leaves (h : parse source = .ok t) {v : Number} (hv : v ∈ t.leaves) :
    v.isNaN = false := by
  have hmem := List.mem_map_of_mem (f := some) hv
  rw [leaves_of_parse h] at hmem
  obtain ⟨text, htext, hread⟩ := List.mem_map.mp hmem
  obtain ⟨_, htoken, hnumber⟩ := List.mem_filterMap.mp htext
  obtain ⟨lexeme, hlexeme, rfl⟩ := List.mem_map.mp htoken
  obtain ⟨token, span⟩ := lexeme
  cases token with
  | number text' =>
    cases hnumber
    exact Number.isNaN_of_ofText?_numerals (Lexeme.maximal_of_number_mem_scan hlexeme).1 hread
  | _ => cases hnumber

end Expr

/-- **Nothing is lost, doubled or reordered between a source and its tree,** be it an infix expression or
not. The leaves are the values of the numbers in their order, none of them not-a-number, so that they
agree bit for bit; the operators are those of the source in some order. -/
theorem contents_of_parse {source : String} {t : Expr} (h : Expr.parse source = .ok t) :
    ∃ lexemes, Lexeme.tokenize source = .ok lexemes ∧
      let tokens := lexemes.map (·.token)
      t.leaves.map some = (tokens.filterMap Token.numberText?).map Number.ofText? ∧
      (∀ v ∈ t.leaves, v.isNaN = false) ∧
      t.operators.Perm (tokens.filterMap Token.operator?) ∧
      t.size = tokens.countP (fun token => !token.isParenthesis) ∧
      t.height ≤ Postfix.maxHeight := by
  obtain ⟨hknown, -⟩ := Postfix.ofSource_eq_ok_iff.mp (Expr.ofSource_of_parse h)
  exact ⟨_, Lexeme.tokenize_eq_ok_iff.mpr ⟨rfl, hknown⟩, Expr.leaves_of_parse h,
    fun v hv => Expr.isNaN_of_mem_leaves h hv, Expr.operators_of_parse h, Expr.size_of_parse h,
    (Expr.quiet_of_parse h).2⟩

/-- The source is no infix expression: the difference has no right operand of its own. -/
theorem contents_of_parse_displaced :
    let leaf (bits : Nat) : Expr := .number (.ofBits bits)
    let t : Expr := .binary .multiply
      (.binary .subtract (leaf 0x401c000000000000) (leaf 0x3fb999999999999a)) (leaf 0x3ff0000000000000)
    Expr.parse "007 (.1 -) * 1." = .ok t ∧
      t.leaves.map some = ["007", ".1", "1."].map Number.ofText? ∧
      t.operators.Perm [.subtract, .multiply] ∧ t.size = 5 := by
  intro leaf t
  have hparse : Expr.parse "007 (.1 -) * 1." = .ok t := by decide +kernel
  obtain ⟨lexemes, htokens, hleaves, -, hoperators, hsize, -⟩ := contents_of_parse hparse
  obtain ⟨rfl, -⟩ := Lexeme.tokenize_eq_ok_iff.mp htokens
  have htexts : ((Lexeme.scan "007 (.1 -) * 1.").map (·.token)).filterMap Token.numberText? =
      ["007", ".1", "1."] := by decide +kernel
  have hops : ((Lexeme.scan "007 (.1 -) * 1.").map (·.token)).filterMap Token.operator? =
      [.subtract, .multiply] := by decide +kernel
  rw [htexts] at hleaves
  rw [hops] at hoperators
  exact ⟨hparse, hleaves, hoperators, hsize.trans (by decide +kernel)⟩

end InfixCalc
