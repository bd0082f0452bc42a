import InfixCalc.Proofs.Building
import InfixCalc.Proofs.Faults
import InfixCalc.Proofs.Locations
/-!
# The trees on the stack

The stack of the builder holds the trees that the words so far are written for, one behind the other, so
that its length is the number of numbers less the number of operators. What goes wrong with a word can be
said in these terms, and the builder ends with the first word that something is wrong with.

Main statements: `Postfix.Stacked.of_run` and `toTree_outcome`.
-/

namespace InfixCalc

namespace Postfix

/-- The word is the symbol of an operator. -/
def isOperatorWord (word : String) : Bool := (Operator.ofText? word).isSome

/-- How many more numbers than operators there are among the words. -/
def balance (words : List String) : Int :=
  (words.countP isNumeric : Int) - (words.countP isOperatorWord : Int)

/-- What is wrong with a word behind others: it is neither a number nor an operator, an operator does not
find two trees, or the tree that an operator would complete is too high. -/
inductive Breaks (before : List String) : String → ParseError → Prop
  | unknownWord {word} : Number.ofText? word = none → (∀ op : Operator, word ≠ op.text) →
    Breaks before word (.unknownWord word)
  | missingOperand {op : Operator} : balance before < 2 → Breaks before op.text .missingOperand
  | tooDeep {op : Operator} {front phrase t} : before ++ [op.text] = front ++ phrase →
    Denotes phrase t → maxHeight < t.height → Breaks before op.text (.tooDeep maxHeight)

/-- The words are written for the trees of the stack, the topmost last. Every tree comes with its height,
and none is too high. -/
inductive Stacked : List String → List Built → Prop
  | nil : Stacked [] []
  | cons {front phrase : List String} {stack : List Built} {t : Expr} : Stacked front stack →
    Denotes phrase t → t.height ≤ maxHeight → Stacked (front ++ phrase) (⟨t, t.height⟩ :: stack)

section
variable {words front phrase : List String} {word : String} {stack next : List Built} {t : Expr}
  {e : ParseError}

/-! ## Kinds of words -/

theorem isUnknown_iff :
    IsUnknown word ↔ Number.ofText? word = none ∧ ∀ op : Operator, word ≠ op.text := by
  apply and_congr_right
  intro _
  constructor
  · rintro h op rfl
    rw [Operator.ofText?_text] at h
    cases h
  · intro h
    cases hop : Operator.ofText? word with
    | none => rfl
    | some op => exact absurd (Operator.text_of_ofText? hop).symm (h op)

theorem word_cases (word : String) :
    (∃ v, Number.ofText? word = some v) ∨ (∃ op : Operator, word = op.text) ∨ IsUnknown word := by
  cases hread : Number.ofText? word with
  | some v => exact .inl ⟨v, rfl⟩
  | none =>
    cases hop : Operator.ofText? word with
    | some op => exact .inr (.inl ⟨op, (Operator.text_of_ofText? hop).symm⟩)
    | none => exact .inr (.inr ⟨hread, hop⟩)

theorem ne_text_of_ofText? {v : Number} (h : Number.ofText? word = some v) (op : Operator) :
    word ≠ op.text := by
  rintro rfl
  rw [Number.ofText?_operatorText] at h
  cases h

theorem push_of_isUnknown (h : IsUnknown word) (stack : List Built) :
    push stack word = .error (.unknownWord word) := by
  rw [push, h.1, h.2]

theorem combine_of_length_lt (h : stack.length < 2) (op : Operator) :
    combine op stack = .error .missingOperand := by
  match stack, h with
  | [], _ | [_], _ => rfl

/-! ## The balance -/

theorem balance_append (words words' : List String) :
    balance (words ++ words') = balance words + balance words' := by
  simp only [balance, List.countP_append]
  omega

theorem balance_number {v : Number} (h : Number.ofText? word = some v) : balance [word] = 1 := by
  have hop : Operator.ofText? word = none := by
    cases hop : Operator.ofText? word with
    | none => rfl
    | some op => exact absurd (Operator.text_of_ofText? hop).symm (ne_text_of_ofText? h op)
  simp [balance, isNumeric, isOperatorWord, h, hop]

theorem balance_operatorText (op : Operator) : balance [op.text] = -1 := by
  simp [balance, isOperatorWord, Operator.ofText?_text]

theorem Denotes.balance_eq (h : Denotes phrase t) : balance phrase = 1 := by
  induction h with
  | number hread => exact balance_number hread
  | binary op _ _ ihl ihr =>
    rw [balance_append, balance_append, ihl, ihr, balance_operatorText]
    rfl

theorem Denotes.ne_nil (h : Denotes phrase t) : phrase ≠ [] := by
  cases h <;> simp

namespace Stacked

theorem balance_eq (h : Stacked words stack) : balance words = stack.length := by
  induction h with
  | nil => rfl
  | cons _ hphrase _ ih =>
    rw [balance_append, ih, hphrase.balance_eq]
    simp

theorem height_eq (h : Stacked words stack) :
    ∀ built ∈ stack, built.height = built.tree.height ∧ built.height ≤ maxHeight := by
  induction h with
  | nil => simp
  | cons _ _ hheight ih => exact List.forall_mem_cons.mpr ⟨⟨rfl, hheight⟩, ih⟩

/-! ## The stack along a run -/

theorem step (h : Stacked words stack) (hpush : push stack word = .ok next) :
    Stacked (words ++ [word]) next := by
  rcases word_cases word with ⟨v, hread⟩ | ⟨op, rfl⟩ | hunknown
  · rw [push_of_ofText? hread] at hpush
    cases hpush
    exact .cons h (.number hread) (show 1 ≤ maxHeight by decide)
  · rw [push_operatorText] at hpush
    cases h with
    | nil => cases hpush
    | cons hfront hright _ =>
      cases hfront with
      | nil => cases hpush
      | cons hfront hleft _ =>
        rw [combine_eq] at hpush
        split at hpush
        · rename_i hheight
          cases hpush
          rw [List.append_assoc, List.append_assoc, ← List.append_assoc _ _ [op.text]]
          exact .cons hfront (.binary op hleft hright) hheight
        · cases hpush
  · rw [push_of_isUnknown hunknown] at hpush
    cases hpush

/-- **The stack holds the trees that the words are written for.** -/
theorem of_run (h : words.foldlM push [] = .ok stack) : Stacked words stack :=
  foldlM_induction .nil step h

end Stacked

/-- A run that has succeeded ends with the next word, if this one completes a tree that is too high. -/
theorem push_of_tooDeep (hrun : words.foldlM push [] = .ok stack)
    (hsplit : words ++ [word] = front ++ phrase) (hphrase : Denotes phrase t)
    (hheight : maxHeight < t.height) : push stack word = .error (.tooDeep maxHeight) := by
  have hall : (words ++ [word]).foldlM push [] = push stack word := by
    rw [foldlM_concat, hrun]
    rfl
  obtain ⟨below, hfront⟩ : ∃ below, front.foldlM push [] = .ok below := by
    -- The phrase is not empty, so what is in front of it has been read already.
    obtain ⟨phrase', last, rfl⟩ := phrase.eq_nil_or_concat.resolve_left hphrase.ne_nil
    rw [List.concat_eq_append, ← List.append_assoc] at hsplit
    obtain ⟨rfl, -⟩ := List.append_inj' hsplit rfl
    rw [List.foldlM_append] at hrun
    obtain ⟨below, hfront, -⟩ := Except.bind_eq_ok_iff.mp hrun
    exact ⟨below, hfront⟩
  rw [← hall, hsplit, List.foldlM_append, hfront]
  exact (hphrase.foldlM_eq below).trans (if_neg (Nat.not_le.mpr hheight))

theorem detects_push : Detects push [] Breaks := by
  intro words stack hrun word e
  have hstacked := Stacked.of_run hrun
  rcases word_cases word with ⟨v, hread⟩ | ⟨op, rfl⟩ | hunknown
  · -- A number is never wrong.
    rw [push_of_ofText? hread]
    refine ⟨nofun, fun h => ?_⟩
    cases h with
    | unknownWord hnumber => simp [hread] at hnumber
    | missingOperand | tooDeep => exact absurd rfl (ne_text_of_ofText? hread _)
  · constructor
    · intro h
      rw [push_operatorText] at h
      rcases Nat.lt_or_ge stack.length 2 with hlength | hlength
      · rw [combine_of_length_lt hlength] at h
        cases h
        exact .missingOperand (by rw [hstacked.balance_eq]; omega)
      · cases hstacked with
        | nil => simp at hlength
        | @cons _ right _ r hfront hright _ =>
          cases hfront with
          | nil => simp at hlength
          | @cons front left _ l hfront hleft _ =>
            rw [combine_eq] at h
            split at h
            · cases h
            · rename_i hheight
              cases h
              have hsplit : front ++ left ++ right ++ [op.text] =
                  front ++ (left ++ right ++ [op.text]) := by
                simp only [List.append_assoc]
              exact .tooDeep hsplit (.binary op hleft hright) (Nat.lt_of_not_le hheight)
    · generalize hword : op.text = word
      intro h
      cases h with
      | unknownWord _ hop => exact absurd hword.symm (hop op)
      | missingOperand hbalance =>
        rw [hstacked.balance_eq] at hbalance
        rw [push_operatorText, combine_of_length_lt (by omega)]
      | tooDeep hsplit hphrase hheight => exact push_of_tooDeep hrun hsplit hphrase hheight
  · rw [push_of_isUnknown hunknown]
    constructor
    · intro h
      cases h
      obtain ⟨hnumber, hop⟩ := isUnknown_iff.mp hunknown
      exact .unknownWord hnumber hop
    · intro h
      cases h with
      | unknownWord => rfl
      | missingOperand | tooDeep => exact absurd rfl ((isUnknown_iff.mp hunknown).2 _)

/-! ## The outcome of a building -/

theorem balance_of_run (hrun : words.foldlM push [] = .ok stack) :
    balance words = stack.length :=
  (Stacked.of_run hrun).balance_eq

theorem denotes_of_toTree (h : toTree words = .ok t) :
    Denotes words t ∧ t.height ≤ maxHeight := by
  unfold toTree at h
  split at h <;> cases h
  rename_i hrun
  cases Stacked.of_run hrun with
  | cons hfront hphrase hheight =>
    cases hfront
    exact ⟨hphrase, hheight⟩

theorem exists_toTree_eq_ok_iff :
    (∃ t, toTree words = .ok t) ↔ FaultFree Breaks words ∧ balance words = 1 := by
  rw [← detects_push.exists_eq_ok_iff, toTree]
  rcases hrun : words.foldlM push [] with e | stack
  · simp
  · rw [balance_of_run hrun]
    rcases stack with _ | ⟨built, _ | ⟨built', stack⟩⟩
    · simp
    · simp
    · simp
      omega

theorem toTree_eq_error_iff :
    toTree words = .error e ↔ FirstFault Breaks words e ∨
      FaultFree Breaks words ∧ balance words ≠ 1 ∧ e = .incomplete := by
  rw [← detects_push.exists_eq_ok_iff, ← detects_push.eq_error_iff, toTree]
  rcases hrun : words.foldlM push [] with e' | stack
  · simp
  · rw [balance_of_run hrun]
    rcases stack with _ | ⟨built, _ | ⟨built', stack⟩⟩
    · simp [eq_comm]
    · simp
    · simp [eq_comm]
      omega

end

end Postfix

open Postfix

/-- **How a building ends.** It fails with the first word that something is wrong with, whatever follows:
a word that is no word, an operator behind fewer than two more numbers than operators, or an operator that
completes a tree that is too high. Otherwise it succeeds if there is just one more number than operators,
and what is built is the tree that the words are written for. Along the way the stack has as many trees
as there are more numbers than operators, each beside its height and none too high. -/
theorem toTree_outcome (words : List String) :
    (∀ e, toTree words = .error e ↔
      FirstFault Breaks words e ∨
        FaultFree Breaks words ∧ balance words ≠ 1 ∧ e = .incomplete) ∧
    (∀ e, toTree words = .error e → e ≠ .incomplete →
      ∀ more, toTree (words ++ more) = .error e) ∧
    ((∃ t, toTree words = .ok t) ↔ FaultFree Breaks words ∧ balance words = 1) ∧
    (∀ t, toTree words = .ok t → Denotes words t ∧ t.height ≤ maxHeight) ∧
    ∀ stack, words.foldlM push [] = .ok stack → balance words = stack.length ∧
      ∀ built ∈ stack, built.height = built.tree.height ∧ built.height ≤ maxHeight := by
  refine ⟨fun e => toTree_eq_error_iff, fun e h hne more => ?_, exists_toTree_eq_ok_iff,
    fun t => denotes_of_toTree, fun stack hrun => ⟨balance_of_run hrun, ?_⟩⟩
  · rcases toTree_eq_error_iff.mp h with hfirst | ⟨-, -, rfl⟩
    · exact toTree_eq_error_iff.mpr (.inl (hfirst.append more))
    · exact absurd rfl hne
  · exact (Stacked.of_run hrun).height_eq

/-- The operator comes too early, although there are numbers enough behind it. -/
theorem toTree_outcome_early :
    (toTree ["1", "*"] = .error .missingOperand ∧
      toTree (["1", "*"] ++ ["2", "3", "%"]) = .error .missingOperand) ∧
    (toTree ["nan", "-1", "2", "/", "^"] = .ok (.binary .power (.number (.nan false))
        (.binary .divide (.number (.ofBits 0xbff0000000000000)) (.number (.ofBits 0x4000000000000000)))) ∧
      balance ["nan", "-1", "2", "/", "^"] = 1) ∧
    ∃ stack, ["1", "-2"].foldlM push [] = .ok stack ∧ balance ["1", "-2"] = stack.length := by
  have hearly : toTree ["1", "*"] = .error .missingOperand := by decide +kernel
  have hlate : toTree ["nan", "-1", "2", "/", "^"] = .ok (.binary .power (.number (.nan false))
      (.binary .divide (.number (.ofBits 0xbff0000000000000))
        (.number (.ofBits 0x4000000000000000)))) := by decide +kernel
  have hstack : ["1", "-2"].foldlM push [] = .ok
      [⟨.number (.ofBits 0xc000000000000000), 1⟩, ⟨.number (.ofBits 0x3ff0000000000000), 1⟩] := by
    decide +kernel
  exact ⟨⟨hearly, (toTree_outcome _).2.1 _ hearly (by decide) _⟩,
    ⟨hlate, ((toTree_outcome _).2.2.1.mp ⟨_, hlate⟩).2⟩,
    ⟨_, hstack, ((toTree_outcome _).2.2.2.2 _ hstack).1⟩⟩

end InfixCalc
