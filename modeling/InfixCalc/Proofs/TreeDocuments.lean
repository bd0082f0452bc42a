import InfixCalc.Expr.Json
import InfixCalc.Postfix.Building
import InfixCalc.Proofs.InfixText
import InfixCalc.Proofs.Numerals
/-!
# Reading back the document of a tree

The document of a tree is read back as a tree of the same shape with the same operators, and with the
numbers that their spellings are read as, unless a number is not finite or the tree is too high: a level
of the tree takes two levels of nesting.

Main statements:

* `Expr.ofJsonWithin?_toJson`: what is read within a number of levels;
* `Expr.ofJsonText?_toJson`: the same for the text in either layout;
* `Expr.json_inverse`.
-/

namespace InfixCalc

namespace Number

/-- What a number is read back as. A number that is not finite is not read. -/
def reread? (v : Number) : Option Number := Expr.value? v.toJson

/-- A finite number is read back as itself from its spelling. -/
def IsReadExactly (v : Number) : Prop :=
  ∀ negative a, v = finite negative a → ofJsonSpelling? (jsonSpelling negative a) = some v

theorem reread?_eq_some {v : Number} (hfinite : v.isFinite = true) (h : v.IsReadExactly) :
    v.reread? = some v := by
  cases v with
  | nan _ | infinite _ => cases hfinite
  | finite negative a => exact h negative a rfl

theorem isReadExactly_of_reread? {v : Number} (h : v.reread? = some v) : v.IsReadExactly := by
  rintro negative a rfl
  exact h

theorem reread?_eq_none {v : Number} (h : v.isFinite = false) : v.reread? = none := by
  cases v with
  | nan _ | infinite _ => rfl
  | finite negative a => cases h

end Number

namespace Expr

open Json (object string)

/-! ## Documents -/

theorem isSpelled_node {kind : String} {fields : List (String × Json)}
    (hkind : Json.IsQuotable kind.toList) (hfields : Json.MembersSpelled (.ofList fields)) :
    (toJson.node kind fields).IsSpelled :=
  ⟨hkind, hfields, trivial⟩

theorem isSpelled_toJson (t : Expr) : t.toJson.IsSpelled := by
  have hquotable : ∀ {name : List Char}, name.all Char.isAlpha = true → Json.IsQuotable name :=
    Json.isQuotable_of_isAlpha
  induction t with
  | number v =>
    have hvalue : v.toJson.IsSpelled := by
      cases v with
      | nan _ | infinite _ => trivial
      | finite negative a => exact Number.isNumeral_jsonSpelling negative a
    exact isSpelled_node (hquotable rfl) ⟨hquotable rfl, hvalue, trivial⟩
  | binary op l r ihl ihr =>
    have hop : (string op.name.toList).IsSpelled := hquotable (by cases op <;> rfl)
    exact isSpelled_node (hquotable rfl)
      ⟨hquotable rfl, hop, hquotable rfl, ihl, hquotable rfl, ihr, trivial⟩

/-! ## Levels -/

/-- The tree with every number as it is read back. -/
def reread? : Expr → Option Expr
  | number v => v.reread?.map number
  | binary op l r => do
    let l ← l.reread?
    let r ← r.reread?
    some (binary op l r)

theorem ofJsonWithin?_number (levels : Nat) (v : Number) :
    ofJsonWithin? (levels + 2) (number v).toJson = v.reread?.map number := rfl

theorem ofJsonWithin?_binary (levels : Nat) (op : Operator) (l r : Expr) :
    ofJsonWithin? (levels + 2) (binary op l r).toJson =
      (do
        let l ← ofJsonWithin? levels l.toJson
        let r ← ofJsonWithin? levels r.toJson
        some (binary op l r)) := by
  have hop : operator? levels (string op.name.toList) = some op := by cases op <;> rfl
  show (operator? levels (string op.name.toList)).bind _ = _
  rw [hop]
  rfl

/-- A level of the tree takes two levels of nesting. -/
theorem ofJsonWithin?_toJson (levels : Nat) (t : Expr) :
    ofJsonWithin? levels t.toJson = if 2 * t.height ≤ levels then t.reread? else none := by
  induction t generalizing levels with
  | number v =>
    rcases levels with _ | _ | levels
    · rfl
    · rfl
    · rw [ofJsonWithin?_number, height, if_pos (by omega), reread?]
  | binary op l r ihl ihr =>
    rcases levels with _ | _ | levels
    · rw [height, if_neg (by omega)]
      rfl
    · rw [height, if_neg (by omega)]
      rfl
    rw [ofJsonWithin?_binary, ihl, ihr, height]
    by_cases hl : 2 * l.height ≤ levels
    · by_cases hr : 2 * r.height ≤ levels
      · rw [if_pos hl, if_pos hr, if_pos (by omega), reread?]
      · rw [if_pos hl, if_neg hr, if_neg (by omega)]
        cases l.reread? <;> rfl
    · rw [if_neg hl, Option.bind_eq_bind, Option.bind_none, if_neg (by omega)]

/-- Both layouts are read alike. -/
theorem ofJsonText?_toJson (t : Expr) {text : String}
    (h : text = t.toJson.compact ∨ text = t.toJson.indented) :
    ofJsonText? text = if 2 * t.height ≤ maxJsonLevels then t.reread? else none := by
  have hread : Json.ofText? text = some t.toJson := by
    rcases h with rfl | rfl
    · exact Json.ofText?_compact t.isSpelled_toJson
    · exact Json.ofText?_indented t.isSpelled_toJson
  rw [ofJsonText?, hread]
  exact ofJsonWithin?_toJson maxJsonLevels t

/-! ## Numbers -/

theorem reread?_eq_some {t : Expr} (h : ∀ v ∈ t.leaves, v.reread? = some v) :
    t.reread? = some t := by
  induction t with
  | number v =>
    rw [reread?, h v (List.mem_singleton.mpr rfl)]
    rfl
  | binary op l r ihl ihr =>
    rw [reread?, ihl fun v hv => h v (List.mem_append_left _ hv),
      ihr fun v hv => h v (List.mem_append_right _ hv)]
    rfl

theorem reread?_eq_none {t : Expr} {v : Number} (hv : v ∈ t.leaves) (h : v.reread? = none) :
    t.reread? = none := by
  induction t with
  | number w =>
    obtain rfl := List.mem_singleton.mp hv
    rw [reread?, h]
    rfl
  | binary op l r ihl ihr =>
    rcases List.mem_append.mp hv with hv | hv
    · rw [reread?, ihl hv]
      rfl
    · rw [reread?, ihr hv]
      cases l.reread? <;> rfl

/-! ## Sums of ones -/

/-- A sum of ones from left to right. -/
def ones : Nat → Expr
  | 0 => number (.ofBits 0x3ff0000000000000)
  | n + 1 => binary .add (ones n) (number (.ofBits 0x3ff0000000000000))

theorem height_ones (n : Nat) : (ones n).height = n + 1 := by
  induction n with
  | zero => rfl
  | succ n ih =>
    rw [ones, height, ih, height]
    omega

theorem eq_of_mem_leaves_ones {n : Nat} {v : Number} (h : v ∈ (ones n).leaves) :
    v = .ofBits 0x3ff0000000000000 := by
  induction n with
  | zero => exact List.mem_singleton.mp h
  | succ n ih =>
    rcases List.mem_append.mp h with h | h
    · exact ih h
    · exact List.mem_singleton.mp h

/-! ## Reading undoes writing -/

/-- The height up to which trees are read back, with two levels of nesting for each of theirs. -/
def maxReadHeight : Nat := maxJsonLevels / 2

example : maxReadHeight = 63 := rfl

theorem nested_le_iff (t : Expr) : 2 * t.height ≤ maxJsonLevels ↔ t.height ≤ maxReadHeight := by
  rw [maxReadHeight, Nat.le_div_iff_mul_le Nat.two_pos, Nat.mul_comm]

/-- **A tree is read back from its document**, in either layout and down to the sign of every zero, if its
numbers are finite and each is read exactly, and if it is not too high. Higher trees are refused, and so
are trees with a number that is not finite. -/
theorem json_inverse (t : Expr) {text : String}
    (htext : text = t.toJson.compact ∨ text = t.toJson.indented) :
    ((∀ v ∈ t.leaves, v.isFinite = true ∧ v.IsReadExactly) → t.height ≤ maxReadHeight →
      ofJsonText? text = some t) ∧
    (maxReadHeight < t.height → ofJsonText? text = none) ∧
    ∀ v ∈ t.leaves, v.isFinite = false → ofJsonText? text = none := by
  rw [ofJsonText?_toJson t htext]
  refine ⟨fun hleaves hheight => ?_, fun hheight => ?_, fun v hv hfinite => ?_⟩
  · rw [if_pos (t.nested_le_iff.mpr hheight)]
    apply reread?_eq_some
    intro v hv
    obtain ⟨hfinite, hexact⟩ := hleaves v hv
    exact Number.reread?_eq_some hfinite hexact
  · rw [if_neg (t.nested_le_iff.not.mpr (Nat.not_le_of_gt hheight))]
  · rw [reread?_eq_none hv (Number.reread?_eq_none hfinite), ite_self]

/-- A negative zero is read back with its sign. An infinite number is not, nor is a sum that is too high. -/
theorem json_inverse_negative_zero :
    let one := number (.ofBits 0x3ff0000000000000)
    let t := binary .subtract (number (.finite true .zero)) one
    let u := binary .subtract (number (.infinite true)) one
    ofJsonText? t.toJson.compact = some t ∧ ofJsonText? t.toJson.indented = some t ∧
      ofJsonText? u.toJson.compact = none ∧ ofJsonText? (ones 63).toJson.indented = none := by
  intro one t u
  have hreread : ∀ v ∈ t.leaves, v.isFinite = true ∧ v.reread? = some v := by decide +kernel
  have hleaves : ∀ v ∈ t.leaves, v.isFinite = true ∧ v.IsReadExactly := by
    intro v hv
    exact (hreread v hv).imp_right Number.isReadExactly_of_reread?
  have hheight : t.height ≤ maxReadHeight := by decide
  have hhigh : maxReadHeight < (ones 63).height := by
    rw [height_ones]
    exact Nat.lt_succ_self 63
  have hcompact := (json_inverse t (.inl rfl)).1 hleaves hheight
  have hindented := (json_inverse t (.inr rfl)).1 hleaves hheight
  have hinfinite := (json_inverse u (.inl rfl)).2.2 (.infinite true) (.head _) rfl
  have hrefused := (json_inverse (ones 63) (.inr rfl)).2.1 hhigh
  exact ⟨hcompact, hindented, hinfinite, hrefused⟩

/-- A sum that is not too high to be built, and whose numbers are read exactly, is refused all the same. -/
theorem ones_not_read_back :
    (∀ v ∈ (ones 63).leaves, v.isFinite = true ∧ v.IsReadExactly) ∧
      (ones 63).height ≤ Postfix.maxHeight ∧
      ofJsonText? (ones 63).toJson.compact ≠ some (ones 63) ∧
      ofJsonText? (ones 63).toJson.indented ≠ some (ones 63) := by
  have hrefused : ∀ text, text = (ones 63).toJson.compact ∨ text = (ones 63).toJson.indented →
      ofJsonText? text ≠ some (ones 63) := by
    intro text htext
    have hheight : ¬ 2 * (ones 63).height ≤ maxJsonLevels := by
      rw [height_ones]
      decide
    rw [ofJsonText?_toJson _ htext, if_neg hheight]
    exact nofun
  refine ⟨fun v hv => ?_, ?_, hrefused _ (.inl rfl), hrefused _ (.inr rfl)⟩
  · rw [eq_of_mem_leaves_ones hv]
    exact ⟨rfl, Number.isReadExactly_of_reread? (by decide +kernel)⟩
  · rw [height_ones]
    decide

end Expr

end InfixCalc
