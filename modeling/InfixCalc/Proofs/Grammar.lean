import InfixCalc.Expr
import InfixCalc.Number.Reading
import InfixCalc.Token
/-!
# The grammar of infix expressions

Two descriptions of the expressions over tokens. `Derives` is the grammar in levels of binding, with
the tree of each phrase; `IsInfix` only says how operands, operators and parentheses may stand.

Main statements:

* `Derives.isInfix`, `IsInfix.exists_derives`: up to numbers that cannot be read, both describe the
  same expressions;
* `isInfix_iff`: an expression is a token list with balanced parentheses in which no two operands are
  juxtaposed and no operand is missing;
* `numbers_add_vacancies`: the numbers and the missing operands are one more than the operators and the
  juxtapositions.
-/

namespace InfixCalc

/-! ## Levels of binding -/

/-- A sum consists of products, a product of powers and a power of primaries. -/
inductive Level where
  | sum
  | product
  | power
  | primary
deriving DecidableEq, Repr

/-- The least precedence of an operator outside parentheses. -/
def Level.precedence : Level → Nat
  | sum => 1
  | product => 2
  | power => 3
  | primary => 4

/-- The phrases of each level with their trees. Sums and products group to the left, powers to the
right; parentheses leave no trace in the tree. -/
inductive Derives : Level → List Token → Expr → Prop
  | sum {ts us t u op} : op = .add ∨ op = .subtract → Derives .sum ts t → Derives .product us u →
    Derives .sum (ts ++ .operator op :: us) (.binary op t u)
  | ofProduct {ts t} : Derives .product ts t → Derives .sum ts t
  | product {ts us t u op} : op = .multiply ∨ op = .divide → Derives .product ts t →
    Derives .power us u → Derives .product (ts ++ .operator op :: us) (.binary op t u)
  | ofPower {ts t} : Derives .power ts t → Derives .product ts t
  | power {ts us t u} : Derives .primary ts t → Derives .power us u →
    Derives .power (ts ++ .operator .power :: us) (.binary .power t u)
  | ofPrimary {ts t} : Derives .primary ts t → Derives .power ts t
  | number {text v} : Number.ofText? text = some v → Derives .primary [.number text] (.number v)
  | group {ts t} : Derives .sum ts t → Derives .primary (.opening :: (ts ++ [.closing])) t

/-- Numbers, parenthesised expressions, and expressions with an operator between them. -/
inductive IsInfix : List Token → Prop
  | number (text) : IsInfix [.number text]
  | group {ts} : IsInfix ts → IsInfix (.opening :: (ts ++ [.closing]))
  | binary {ts us} (op) : IsInfix ts → IsInfix us → IsInfix (ts ++ .operator op :: us)

/-- Every number among the tokens has a value. -/
def Readable (ts : List Token) : Prop :=
  ∀ text, .number text ∈ ts → ∃ v, Number.ofText? text = some v

namespace Derives

variable {l : Level} {ts : List Token} {t : Expr}

/-- A primary is a phrase of every level. -/
theorem ofPrimaryAt (h : Derives .primary ts t) : ∀ l, Derives l ts t
  | .sum => .ofProduct (.ofPower (.ofPrimary h))
  | .product => .ofPower (.ofPrimary h)
  | .power => .ofPrimary h
  | .primary => h

/-- An operator between two primaries. -/
theorem binary {us : List Token} {u : Expr} (op : Operator) (ht : Derives .primary ts t)
    (hu : Derives .primary us u) : Derives .sum (ts ++ .operator op :: us) (.binary op t u) :=
  match op with
  | .add => .sum (.inl rfl) (ht.ofPrimaryAt _) (hu.ofPrimaryAt _)
  | .subtract => .sum (.inr rfl) (ht.ofPrimaryAt _) (hu.ofPrimaryAt _)
  | .multiply => .ofProduct (.product (.inl rfl) (ht.ofPrimaryAt _) (hu.ofPrimaryAt _))
  | .divide => .ofProduct (.product (.inr rfl) (ht.ofPrimaryAt _) (hu.ofPrimaryAt _))
  | .power => .ofProduct (.ofPower (.power ht (.ofPrimary hu)))

theorem isInfix (h : Derives l ts t) : IsInfix ts := by
  induction h with
  | sum _ _ _ ih₁ ih₂ | product _ _ _ ih₁ ih₂ | power _ _ ih₁ ih₂ => exact .binary _ ih₁ ih₂
  | ofProduct _ ih | ofPower _ ih | ofPrimary _ ih => exact ih
  | number _ => exact .number _
  | group _ ih => exact .group ih

end Derives

theorem IsInfix.unknown_not_mem {ts : List Token} (h : IsInfix ts) (c : Char) :
    .unknown c ∉ ts := by
  induction h with
  | number _ => simp
  | group _ ih => simpa using ih
  | binary op _ _ ih₁ ih₂ => simp [ih₁, ih₂]

/-! ## Every infix expression has a derivation -/

/-- The token list is a phrase of the level. -/
def IsPhrase (l : Level) (ts : List Token) : Prop := ∃ t, Derives l ts t

theorem Operator.product_le_precedence {op : Operator} (h : ¬ (op = .add ∨ op = .subtract)) :
    Level.product.precedence ≤ op.precedence := by
  cases op with
  | add => exact absurd (.inl rfl) h
  | subtract => exact absurd (.inr rfl) h
  | multiply | divide | power => decide

theorem Operator.eq_power_of_not_isProduct {op : Operator}
    (hop : Level.product.precedence ≤ op.precedence) (h : ¬ (op = .multiply ∨ op = .divide)) :
    op = .power := by
  cases op with
  | add | subtract => revert hop; decide
  | multiply => exact absurd (.inl rfl) h
  | divide => exact absurd (.inr rfl) h
  | power => rfl

theorem Operator.eq_power_of_le {op : Operator} (hop : Level.power.precedence ≤ op.precedence) :
    op = .power := by
  cases op with
  | add | subtract | multiply | divide => revert hop; decide
  | power => rfl

theorem Operator.precedence_lt_primary (op : Operator) :
    op.precedence < Level.primary.precedence := by
  cases op <;> decide

/-- An operator of a level or a tighter one may join a primary to a phrase of the level. -/
theorem IsPhrase.prepend {op : Operator} {l : Level} {xs us : List Token} {x u : Expr}
    (hx : Derives .primary xs x) (hu : Derives l us u) (hop : l.precedence ≤ op.precedence) :
    IsPhrase l (xs ++ .operator op :: us) := by
  -- The primary goes in front of the leftmost operand that binds no tighter than the operator.
  induction hu with
  | @sum us₁ us₂ _ _ op' hop' _ hright ihleft =>
    obtain ⟨_, hleft⟩ := ihleft hop
    have hjoined := Derives.sum hop' hleft hright
    rw [List.append_assoc] at hjoined
    exact ⟨_, hjoined⟩
  | ofProduct hu ih =>
    by_cases hsum : op = .add ∨ op = .subtract
    · exact ⟨_, .sum hsum (hx.ofPrimaryAt _) hu⟩
    · obtain ⟨_, h⟩ := ih (Operator.product_le_precedence hsum)
      exact ⟨_, .ofProduct h⟩
  | product hop' _ hright ihleft =>
    obtain ⟨_, hleft⟩ := ihleft hop
    have hjoined := Derives.product hop' hleft hright
    rw [List.append_assoc] at hjoined
    exact ⟨_, hjoined⟩
  | ofPower hu ih =>
    by_cases hproduct : op = .multiply ∨ op = .divide
    · exact ⟨_, .product hproduct (hx.ofPrimaryAt _) hu⟩
    · obtain rfl := Operator.eq_power_of_not_isProduct hop hproduct
      obtain ⟨_, h⟩ := ih (Nat.le_refl _)
      exact ⟨_, .ofPower h⟩
  | power hleft hright =>
    obtain rfl := Operator.eq_power_of_le hop
    exact ⟨_, .power hx (.power hleft hright)⟩
  | ofPrimary hu =>
    obtain rfl := Operator.eq_power_of_le hop
    exact ⟨_, .power hx (.ofPrimary hu)⟩
  | number _ | group _ => exact absurd hop (Nat.not_le_of_lt op.precedence_lt_primary)

/-- What stands for an operand: it is a phrase, and so is every join of it to a phrase. -/
structure IsOperand (ts : List Token) : Prop where
  isPhrase : IsPhrase .sum ts
  join (op : Operator) {us : List Token} : IsPhrase .sum us →
    IsPhrase .sum (ts ++ .operator op :: us)

theorem IsOperand.ofPrimary {ts : List Token} {t : Expr} (h : Derives .primary ts t) :
    IsOperand ts where
  isPhrase := ⟨t, h.ofPrimaryAt _⟩
  join op _ := fun ⟨_, hu⟩ => .prepend h hu (by cases op <;> decide)

theorem IsInfix.isOperand {ts : List Token} (h : IsInfix ts) (hread : Readable ts) :
    IsOperand ts := by
  induction h with
  | number text =>
    obtain ⟨v, hv⟩ := hread text (List.mem_singleton_self _)
    exact .ofPrimary (.number hv)
  | group _ ih =>
    obtain ⟨_, ht⟩ := (ih fun text hmem => hread text (by simp [hmem])).isPhrase
    exact .ofPrimary (.group ht)
  | @binary ts us op _ _ ih₁ ih₂ =>
    have hleft := ih₁ fun text hmem => hread text (by simp [hmem])
    have hright := ih₂ fun text hmem => hread text (by simp [hmem])
    refine ⟨hleft.join op hright.isPhrase, fun op' _ hus => ?_⟩
    have hjoined := hleft.join op (hright.join op' hus)
    rwa [← List.cons_append, ← List.append_assoc] at hjoined

/-- **An infix expression whose numbers can be read has a tree.** -/
theorem IsInfix.exists_derives {ts : List Token} (h : IsInfix ts) (hread : Readable ts) :
    ∃ t, Derives .sum ts t :=
  (h.isOperand hread).isPhrase

/-! ## Juxtaposed and missing operands -/

/-- How often an operand begins right behind an operand. An operand that has just ended in front of
the tokens makes them `complete`. -/
def juxtapositions (complete : Bool) : List Token → Nat
  | [] => 0
  | .number _ :: ts => complete.toNat + juxtapositions true ts
  | .opening :: ts => complete.toNat + juxtapositions false ts
  | .operator _ :: ts => juxtapositions false ts
  | .closing :: ts => juxtapositions true ts
  | .unknown _ :: ts => juxtapositions complete ts

/-- How many operands are missing: in front of an operator, of a closing parenthesis or of the end. -/
def vacancies (complete : Bool) : List Token → Nat
  | [] => (!complete).toNat
  | .number _ :: ts => vacancies true ts
  | .opening :: ts => vacancies false ts
  | .operator _ :: ts => (!complete).toNat + vacancies false ts
  | .closing :: ts => (!complete).toNat + vacancies true ts
  | .unknown _ :: ts => vacancies complete ts

/-- How many of the groups are open behind the tokens. There is no answer if a parenthesis closes
nothing or a character is unknown. -/
def openGroups? (depth : Nat) : List Token → Option Nat
  | [] => some depth
  | .opening :: ts => openGroups? (depth + 1) ts
  | .closing :: ts => match depth with
    | 0 => none
    | depth + 1 => openGroups? depth ts
  | .unknown _ :: _ => none
  | .number _ :: ts | .operator _ :: ts => openGroups? depth ts

namespace Token

def isNumber : Token → Bool
  | number _ => true
  | _ => false

def isOperator : Token → Bool
  | operator _ => true
  | _ => false

end Token

/-- An operand more makes a juxtaposition more or a vacancy less. -/
theorem numbers_add_vacancies (complete : Bool) (ts : List Token) :
    ts.countP Token.isNumber + vacancies complete ts + complete.toNat =
      ts.countP Token.isOperator + juxtapositions complete ts + 1 := by
  induction ts generalizing complete with
  | nil => cases complete <;> rfl
  | cons token ts ih =>
    have htrue := ih true
    have hfalse := ih false
    cases token <;> cases complete <;>
      simp [vacancies, juxtapositions, Token.isNumber, Token.isOperator, List.countP_cons] at * <;>
      omega

/-! ## Infix expressions by counting -/

/-- An expression is one operand for what follows it. -/
theorem IsInfix.counts_append {ts : List Token} (h : IsInfix ts) (rest : List Token) :
    juxtapositions false (ts ++ rest) = juxtapositions true rest ∧
      vacancies false (ts ++ rest) = vacancies true rest ∧
      ∀ depth, openGroups? depth (ts ++ rest) = openGroups? depth rest := by
  induction h generalizing rest with
  | number _ => simp [juxtapositions, vacancies, openGroups?]
  | group _ ih =>
    have ⟨h₁, h₂, h₃⟩ := ih (.closing :: rest)
    simp [juxtapositions, vacancies, openGroups?, h₁, h₂, h₃]
  | @binary _ us op _ _ ih₁ ih₂ =>
    have ⟨h₁, h₂, h₃⟩ := ih₁ (.operator op :: us ++ rest)
    have ⟨h₄, h₅, h₆⟩ := ih₂ rest
    simp_all [juxtapositions, vacancies, openGroups?]

/-- What may stand in front of an operand. -/
def IsOpen (ts : List Token) : Prop := ∀ us, IsInfix us → IsInfix (ts ++ us)

theorem isOpen_nil : IsOpen [] := fun _ h => h

theorem IsInfix.isOpen {ts : List Token} (h : IsInfix ts) (op : Operator) :
    IsOpen (ts ++ [.operator op]) := by
  intro us hus
  rw [List.append_assoc]
  exact .binary op h hus

/-- The tokens behind unfinished groups, the innermost of which comes first. -/
def enclosed : List (List Token) → List Token → List Token
  | [], ts => ts
  | outer :: outers, ts => enclosed outers (outer ++ .opening :: ts)

/-- The tokens `now` of the innermost group lead to the state `complete`. -/
def Reaches (complete : Bool) (now : List Token) : Prop :=
  if complete then IsInfix now else IsOpen now

/-- If the rest of the tokens closes every group and fills every place just once, the whole is an
expression. -/
theorem isInfix_enclosed {ts : List Token} (outers : List (List Token)) (complete : Bool)
    (now : List Token) (houters : ∀ outer ∈ outers, IsOpen outer) (hnow : Reaches complete now)
    (hgroups : openGroups? outers.length ts = some 0) (hjuxta : juxtapositions complete ts = 0)
    (hvacant : vacancies complete ts = 0) : IsInfix (enclosed outers (now ++ ts)) := by
  induction ts generalizing outers complete now with
  | nil =>
    obtain rfl : complete = true := by simpa [vacancies] using hvacant
    obtain rfl : outers = [] := by simpa [openGroups?] using hgroups
    rw [List.append_nil]
    exact hnow
  | cons token ts ih =>
    cases token with
    | number text =>
      obtain ⟨rfl, hnone⟩ : complete = false ∧ juxtapositions true ts = 0 := by
        simpa [juxtapositions] using hjuxta
      have hnext : IsInfix (now ++ [.number text]) := hnow _ (.number text)
      simpa using ih outers true _ houters hnext hgroups hnone hvacant
    | operator op =>
      obtain ⟨rfl, hnone⟩ : complete = true ∧ vacancies false ts = 0 := by
        simpa [vacancies] using hvacant
      have hnext : IsOpen (now ++ [.operator op]) := IsInfix.isOpen hnow op
      simpa using ih outers false _ houters hnext hgroups hjuxta hnone
    | opening =>
      obtain ⟨rfl, hnone⟩ : complete = false ∧ juxtapositions false ts = 0 := by
        simpa [juxtapositions] using hjuxta
      have houters : ∀ outer ∈ now :: outers, IsOpen outer :=
        List.forall_mem_cons.mpr ⟨hnow, houters⟩
      exact ih (now :: outers) false [] houters isOpen_nil hgroups hnone hvacant
    | closing =>
      obtain ⟨rfl, hnone⟩ : complete = true ∧ vacancies true ts = 0 := by
        simpa [vacancies] using hvacant
      cases outers with
      | nil => cases hgroups
      | cons outer outers =>
        obtain ⟨houter, houters⟩ := List.forall_mem_cons.mp houters
        have hnext : IsInfix (outer ++ .opening :: (now ++ [.closing])) := houter _ (.group hnow)
        simpa [enclosed] using ih outers true _ houters hnext hgroups hjuxta hnone
    | unknown char => cases hgroups

/-- **A token list is an infix expression exactly if its parentheses are balanced, no operands are
juxtaposed and no operand is missing.** -/
theorem isInfix_iff (ts : List Token) :
    IsInfix ts ↔
      openGroups? 0 ts = some 0 ∧ juxtapositions false ts = 0 ∧ vacancies false ts = 0 := by
  constructor
  · intro h
    obtain ⟨h₁, h₂, h₃⟩ := h.counts_append []
    rw [List.append_nil] at h₁ h₂ h₃
    exact ⟨h₃ 0, h₁, h₂⟩
  · rintro ⟨hgroups, hjuxta, hvacant⟩
    exact isInfix_enclosed [] false [] (by simp) isOpen_nil hgroups hjuxta hvacant

end InfixCalc
