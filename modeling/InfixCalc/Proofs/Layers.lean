import InfixCalc.Proofs.Groups
import Mathlib.Data.List.Chain
/-!
# The order of the operators on the stack

An operator is put on the stack only where nothing on top applies before it. So within each group the
operators on the stack bind the more tightly the higher they lie, and only powers lie on their like. What
has been passed on and what lies on the stack are together what has been read.

Main statements:

* `Postfix.Ordered.of_feed`: the order is kept by every list of lexemes;
* `Postfix.Ordered.isLayered`: what the order means for the operators of a group;
* `Postfix.layered_of_feed`: what is known of the words and of the stack behind any list of lexemes.
-/

namespace InfixCalc

namespace Postfix

/-! ## What may lie on what -/

/-- Every operator lies on a parenthesis, on the ground or on an operator that does not apply before
it. -/
inductive Ordered : List Pending → Prop
  | nil : Ordered []
  | opening {span stack} : Ordered stack → Ordered (.opening span :: stack)
  | operator {op stack} : Stops (·.appliesBefore op) stack → Ordered stack →
    Ordered (.operator op :: stack)

/-- The upper operator binds more tightly than the one that it lies on, or both are powers. -/
def LiesOn (upper lower : Operator) : Prop :=
  lower.precedence < upper.precedence ∨ lower = .power ∧ upper = .power

/-- From the bottom to the top: at most one sum or difference, then at most one product or quotient, and
then powers. -/
def IsLayered (ops : List Operator) : Prop :=
  ∃ sums products powers, ops = sums ++ products ++ powers ∧
    sums.length ≤ 1 ∧ (∀ op ∈ sums, op = .add ∨ op = .subtract) ∧
    products.length ≤ 1 ∧ (∀ op ∈ products, op = .multiply ∨ op = .divide) ∧
    ∀ op ∈ powers, op = .power

theorem appliesBefore_eq_false_iff {lower upper : Operator} :
    lower.appliesBefore upper = false ↔ LiesOn upper lower := by
  unfold LiesOn
  cases lower <;> cases upper <;> decide

/-! ## What a step keeps -/

theorem stops_release (p : Operator → Bool) (stack : List Pending) :
    Stops p (release p stack).2 := by
  induction stack with
  | nil => exact fun _ _ h => nomatch h
  | cons entry stack ih =>
    cases entry with
    | opening _ => exact fun _ _ h => nomatch h
    | operator op =>
      by_cases hp : p op = true
      · simpa [release, hp] using ih
      · intro top below htop
        simp only [release, if_neg hp] at htop
        cases htop
        simpa using hp

namespace Ordered

variable {above stack next last : List Pending}

theorem of_append (h : Ordered (above ++ stack)) : Ordered stack := by
  induction above with
  | nil => exact h
  | cons entry above ih =>
    cases h with
    | opening h | operator _ h => exact ih h

theorem step {token : Token} {words : List String} (h : Ordered stack)
    (hmove : Moves stack token words next) : Ordered next := by
  cases hmove with
  | number _ => exact h
  | @operator op ops rest hrelease =>
    have hstack := release_spec (·.appliesBefore op) stack
    have hstops := stops_release (·.appliesBefore op) stack
    rw [hrelease] at hstack hstops
    rw [hstack] at h
    exact .operator hstops h.of_append
  | opening _ => exact .opening h
  | closing hstack =>
    rw [hstack] at h
    cases h.of_append with
    | opening h => exact h

/-- **Whatever is read, the operators on the stack stay in order.** -/
theorem of_feed {lexemes : List Lexeme} {words : List String} (h : Ordered stack)
    (hfeed : feed stack lexemes = .ok (words, last)) : Ordered last :=
  feed_induction (P := fun stack _ _ last => Ordered stack → Ordered last) (fun _ h => h)
    (fun hmove ih h => ih (h.step hmove)) hfeed h

end Ordered

/-! ## What the order means -/

/-- Operators without a parenthesis between them, the topmost first. -/
theorem Ordered.isChain {ops : List Operator} {stack : List Pending}
    (h : Ordered (ops.map .operator ++ stack)) : ops.IsChain LiesOn := by
  induction ops with
  | nil => exact .nil
  | cons op ops ih =>
    cases h with
    | operator hstops h =>
      refine List.isChain_cons.mpr ⟨fun lower hlower => ?_, ih h⟩
      obtain ⟨ops, rfl⟩ := List.head?_eq_some_iff.mp hlower
      exact appliesBefore_eq_false_iff.mp (hstops lower _ rfl)

section
variable {op : Operator} {ops : List Operator}

/-- Only powers lie on a product or on a power. -/
theorem eq_power_of_isChain (hop : Level.product.precedence ≤ op.precedence)
    (h : (op :: ops).IsChain fun lower upper => LiesOn upper lower) : ∀ op ∈ ops, op = .power := by
  induction ops generalizing op with
  | nil => exact fun _ hmem => nomatch hmem
  | cons upper ops ih =>
    obtain ⟨hlies, hops⟩ := List.isChain_cons_cons.mp h
    obtain rfl : upper = .power := by
      revert hop hlies
      unfold LiesOn
      cases op <;> cases upper <;> decide
    exact List.forall_mem_cons.mpr ⟨rfl, ih (by decide) hops⟩

/-- Products and powers, from the bottom to the top. -/
theorem exists_products_of_isChain (h : ops.IsChain fun lower upper => LiesOn upper lower)
    (hops : ∀ op ∈ ops.head?, ¬ (op = .add ∨ op = .subtract)) :
    ∃ products powers, ops = products ++ powers ∧ products.length ≤ 1 ∧
      (∀ op ∈ products, op = .multiply ∨ op = .divide) ∧ ∀ op ∈ powers, op = .power := by
  cases ops with
  | nil => exact ⟨[], [], rfl, by simp, by simp, by simp⟩
  | cons op ops =>
    have hop := Operator.product_le_precedence (hops op rfl)
    have hpowers := eq_power_of_isChain hop h
    by_cases hproduct : op = .multiply ∨ op = .divide
    · exact ⟨[op], ops, rfl, Nat.le_refl _, by simpa using hproduct, hpowers⟩
    · have hpower := Operator.eq_power_of_not_isProduct hop hproduct
      exact ⟨[], op :: ops, rfl, by simp, by simp, List.forall_mem_cons.mpr ⟨hpower, hpowers⟩⟩

theorem isLayered_of_isChain (h : ops.IsChain fun lower upper => LiesOn upper lower) :
    IsLayered ops := by
  by_cases hsum : ∃ op ∈ ops.head?, op = .add ∨ op = .subtract
  · obtain ⟨sum, hhead, hsum⟩ := hsum
    obtain ⟨ops, rfl⟩ := List.head?_eq_some_iff.mp hhead
    obtain ⟨hlies, hops⟩ := List.isChain_cons.mp h
    -- What lies on a sum is no sum.
    have hnot : ∀ upper ∈ ops.head?, ¬ (upper = .add ∨ upper = .subtract) := by
      intro upper hupper
      have := hlies upper hupper
      revert this
      unfold LiesOn
      rcases hsum with rfl | rfl <;> cases upper <;> decide
    obtain ⟨products, powers, rfl, hlength, hproducts, hpowers⟩ := exists_products_of_isChain hops hnot
    exact ⟨[sum], products, powers, rfl, Nat.le_refl _, by simpa using hsum, hlength, hproducts,
      hpowers⟩
  · obtain ⟨products, powers, rfl, hlength, hproducts, hpowers⟩ :=
      exists_products_of_isChain h fun op hop hsum' => hsum ⟨op, hop, hsum'⟩
    exact ⟨[], products, powers, rfl, by simp, by simp, hlength, hproducts, hpowers⟩

end

/-- **The operators of a group lie in layers.** -/
theorem Ordered.isLayered {above below stack : List Pending} {ops : List Operator}
    (h : Ordered stack) (hstack : stack = above ++ ops.map .operator ++ below) :
    ops.IsChain LiesOn ∧ IsLayered ops.reverse := by
  rw [hstack, List.append_assoc] at h
  have hchain := h.of_append.isChain
  exact ⟨hchain, isLayered_of_isChain (List.isChain_reverse.mpr hchain)⟩

/-! ## What has been read -/

/-- A step spells the token that it reads, unless it is a parenthesis, and passes a number on at once. -/
theorem Moves.spelled {stack next : List Pending} {token : Token} {words : List String}
    (h : Moves stack token words next) :
    token.word?.isSome = !token.isParenthesis ∧
      words.filter isNumeric = token.word?.toList.filter isNumeric := by
  have hops (ops : List Operator) : (ops.map Operator.text).filter isNumeric = [] := by
    simp [List.filter_eq_nil_iff]
  cases h with
  | number hread => simp [Token.word?, Token.isParenthesis, hread]
  | operator _ => simp [Token.word?, Token.isParenthesis, hops]
  | opening _ => exact ⟨rfl, rfl⟩
  | closing _ => exact ⟨rfl, hops _⟩

theorem spelled_of_feed {stack last : List Pending} {lexemes : List Lexeme} {words : List String}
    (h : feed stack lexemes = .ok (words, last)) :
    ((lexemes.map (·.token)).filter fun token => !token.isParenthesis).map Token.word? =
        ((lexemes.map (·.token)).filterMap Token.word?).map some ∧
      words.filter isNumeric = ((lexemes.map (·.token)).filterMap Token.word?).filter isNumeric := by
  refine feed_induction (P := fun _ tokens words _ =>
    (tokens.filter fun token => !token.isParenthesis).map Token.word? =
        (tokens.filterMap Token.word?).map some ∧
      words.filter isNumeric = (tokens.filterMap Token.word?).filter isNumeric)
    (fun _ => ⟨rfl, rfl⟩) ?_ h
  intro stack token words next tokens words' last hmove ⟨ihspelled, ihnumbers⟩
  obtain ⟨hspelled, hnumbers⟩ := hmove.spelled
  rw [List.filter_append, hnumbers, ihnumbers, List.filter_cons, ← hspelled, List.filterMap_cons,
    ← List.filter_append]
  cases hword : token.word? with
  | none => exact ⟨ihspelled, rfl⟩
  | some word => simp [hword, ihspelled]

end Postfix

open Postfix

/-- **The words and the stack behind any list of lexemes.** The operators that lie on the stack without a
parenthesis between them are, from the bottom to the top, at most one sum or difference, at most one
product or quotient, and powers: each binds more tightly than the one that it lies on, unless both are
powers. The parentheses on the stack are those that have not been closed, the last on top. The words that
have been passed on are, together with the operators on the stack, the words of all that has been read but
the parentheses, and the numbers among them are in their order. -/
theorem layered_of_feed {lexemes : List Lexeme} {words : List String} {stack : List Pending}
    (h : feed [] lexemes = .ok (words, stack)) :
    (∀ (above : List Pending) (ops : List Operator) (below : List Pending),
      stack = above ++ ops.map .operator ++ below →
      ops.IsChain (fun upper lower => lower.precedence < upper.precedence ∨
        lower = .power ∧ upper = .power) ∧
      IsLayered ops.reverse) ∧
    Pends lexemes (openings stack) ∧
    ∃ spelled : List String,
      ((lexemes.map (·.token)).filter fun token => !token.isParenthesis).map Token.word? =
        spelled.map some ∧
      (words ++ (waiting stack).map Operator.text).Perm spelled ∧
      words.filter isNumeric = spelled.filter isNumeric := by
  have hrun : lexemes.foldlM group [] = .ok (openings stack) := by
    have hopenings := feed_openings [] lexemes
    rw [h] at hopenings
    exact hopenings.symm
  obtain ⟨hspelled, hnumbers⟩ := spelled_of_feed h
  exact ⟨fun above ops below hstack => (Ordered.nil.of_feed h).isLayered hstack, Pends.of_run hrun,
    _, hspelled, perm_of_feed h, hnumbers⟩

/-- The text is no expression. The group outside the parenthesis has a layer of each kind. -/
theorem layered_of_feed_misplaced :
    let lexemes := Lexeme.scan "1 - 2 * ^ 3 ^ (4 5 * +"
    feed [] lexemes = .ok (["1", "2", "3", "4", "5", "*"], [.operator .add, .opening ⟨14, 15⟩,
        .operator .power, .operator .power, .operator .multiply, .operator .subtract]) ∧
      IsLayered [.subtract, .multiply, .power, .power] ∧ Pends lexemes [⟨14, 15⟩] := by
  intro lexemes
  have hfeed : feed [] lexemes = .ok (["1", "2", "3", "4", "5", "*"], [.operator .add,
      .opening ⟨14, 15⟩, .operator .power, .operator .power, .operator .multiply,
      .operator .subtract]) := by decide +kernel
  obtain ⟨hlayers, hpends, -⟩ := layered_of_feed hfeed
  exact ⟨hfeed, (hlayers [.operator .add, .opening ⟨14, 15⟩] [.power, .power, .multiply, .subtract]
    [] rfl).2, hpends⟩

end InfixCalc
