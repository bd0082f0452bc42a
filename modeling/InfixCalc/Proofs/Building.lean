import InfixCalc.Expr.Rendering
import InfixCalc.Postfix.Building
import InfixCalc.Proofs.NumberText
import InfixCalc.Proofs.Results
/-!
# Building a tree from postfix words

The postfix words of a tree build that tree, if it is not too high, and a word list that builds a tree
is the postfix word list of it, except for the spelling of the numbers.

Main statements: `Postfix.Denotes.toTree_eq` and `Postfix.postfixWords_of_toTree`.
-/

namespace InfixCalc

namespace Expr

/-- The tree that is read back: every not-a-number becomes the quiet one. -/
def quiet : Expr → Expr
  | number v => number v.quiet
  | binary op l r => binary op l.quiet r.quiet

@[simp] theorem height_quiet (t : Expr) : t.quiet.height = t.height := by
  induction t with
  | number _ => rfl
  | binary _ _ _ ihl ihr => simp [quiet, height, ihl, ihr]

end Expr

namespace Operator

theorem ofText?_text (op : Operator) : ofText? op.text = some op := by cases op <;> rfl

theorem text_of_ofText? {text : String} {op : Operator} (h : ofText? text = some op) :
    op.text = text := by
  unfold ofText? at h
  split at h
  · rename_i c hlist
    rw [Operator.text, symbol_of_ofSymbol? h]
    exact String.toList_injective (hlist ▸ String.toList_singleton c)
  · cases h

end Operator

/-- No operator reads as a number. -/
theorem Number.ofText?_operatorText (op : Operator) : ofText? op.text = none := by
  cases op <;> decide

namespace Postfix

/-- The tree, unless it is too high to be built. -/
def limited (t : Expr) : Except ParseError Expr :=
  if t.height ≤ maxHeight then .ok t else .error (.tooDeep maxHeight)

/-! ## From the words of a tree -/

/-- The words are written for the tree, its operators behind their operands. Numbers may be spelled in any
way that reads as them. -/
inductive Denotes : List String → Expr → Prop
  | number {word v} : Number.ofText? word = some v → Denotes [word] (.number v)
  | binary {left right l r} (op : Operator) : Denotes left l → Denotes right r →
    Denotes (left ++ right ++ [op.text]) (.binary op l r)

theorem denotes_postfixWords (t : Expr) : Denotes t.postfixWords t.quiet := by
  induction t with
  | number v => exact .number v.ofText?_text
  | binary op l r ihl ihr => exact .binary op ihl ihr

theorem push_of_ofText? {word : String} {v : Number} (h : Number.ofText? word = some v)
    (stack : List Built) : push stack word = .ok (⟨.number v, 1⟩ :: stack) := by
  rw [push, h]

theorem push_operatorText (stack : List Built) (op : Operator) :
    push stack op.text = combine op stack := by
  rw [push, Number.ofText?_operatorText, Operator.ofText?_text]

theorem combine_eq (op : Operator) (right left : Built) (stack : List Built) :
    combine op (right :: left :: stack) =
      if 1 + max left.height right.height ≤ maxHeight then
        .ok (⟨.binary op left.tree right.tree, 1 + max left.height right.height⟩ :: stack)
      else .error (.tooDeep maxHeight) := by
  show (if maxHeight < 1 + max left.height right.height then _ else _) = _
  by_cases h : 1 + max left.height right.height ≤ maxHeight
  · rw [if_pos h, if_neg (Nat.not_lt.mpr h)]
  · rw [if_neg h, if_pos (Nat.lt_of_not_le h)]

/-- The words of a tree put the tree on top of any stack. -/
theorem Denotes.foldlM_eq {words : List String} {t : Expr} (h : Denotes words t)
    (stack : List Built) :
    words.foldlM push stack =
      if t.height ≤ maxHeight then .ok (⟨t, t.height⟩ :: stack)
      else .error (.tooDeep maxHeight) := by
  induction h generalizing stack with
  | @number word v hread =>
    show (push stack word).bind .ok = .ok _
    rw [push_of_ofText? hread]
    rfl
  | @binary left right l r op _ _ ihl ihr =>
    have hheight : (Expr.binary op l r).height = 1 + max l.height r.height := rfl
    rw [List.foldlM_append, List.foldlM_append, ihl, hheight]
    -- The first part that is too high ends the building with the error of the whole.
    by_cases hl : l.height ≤ maxHeight
    · rw [if_pos hl]
      show (right.foldlM push _).bind _ = _
      rw [ihr]
      by_cases hr : r.height ≤ maxHeight
      · rw [if_pos hr]
        show (push (⟨r, r.height⟩ :: ⟨l, l.height⟩ :: stack) op.text).bind .ok = _
        rw [push_operatorText, combine_eq]
        split <;> rfl
      · rw [if_neg hr, if_neg (by omega)]
        rfl
    · rw [if_neg hl, if_neg (by omega)]
      rfl

/-- **The words of a tree build the tree, if it is not too high.** -/
theorem Denotes.toTree_eq {words : List String} {t : Expr} (h : Denotes words t) :
    toTree words = limited t := by
  rw [toTree, h.foldlM_eq, limited]
  by_cases hheight : t.height ≤ maxHeight
  · rw [if_pos hheight, if_pos hheight]
  · rw [if_neg hheight, if_neg hheight]

theorem toTree_postfixWords (t : Expr) : toTree t.postfixWords = limited t.quiet :=
  (denotes_postfixWords t).toTree_eq

/-! ## From words to the words of the tree -/

/-- The word with the canonical text if it is a number. -/
def canonical (word : String) : String :=
  match Number.ofText? word with
  | some v => v.text
  | none => word

/-- The words of the trees on a stack, the topmost last. -/
def stackWords : List Built → List String
  | [] => []
  | built :: below => stackWords below ++ built.tree.postfixWords

theorem canonical_of_ofText? {word : String} {v : Number} (h : Number.ofText? word = some v) :
    canonical word = v.text := by
  rw [canonical, h]

theorem canonical_of_ofText?_none {word : String} (h : Number.ofText? word = none) :
    canonical word = word := by
  rw [canonical, h]

theorem stackWords_of_push {stack stack' : List Built} {word : String}
    (h : push stack word = .ok stack') : stackWords stack' = stackWords stack ++ [canonical word] := by
  unfold push at h
  split at h
  · rename_i v hread
    cases h
    rw [canonical_of_ofText? hread]
    rfl
  rename_i hread
  rw [canonical_of_ofText?_none hread]
  split at h
  · rename_i op hop
    unfold combine at h
    split at h
    · dsimp only at h
      split at h
      · cases h
      · cases h
        rw [← Operator.text_of_ofText? hop]
        simp only [stackWords, Expr.postfixWords, List.append_assoc]
    · cases h
  · cases h

theorem stackWords_of_foldlM {words : List String} {stack stack' : List Built}
    (h : words.foldlM push stack = .ok stack') :
    stackWords stack' = stackWords stack ++ words.map canonical := by
  induction words generalizing stack with
  | nil =>
    cases h
    exact (List.append_nil _).symm
  | cons word words ih =>
    rw [List.foldlM_cons] at h
    obtain ⟨next, hpush, hrest⟩ := Except.bind_eq_ok_iff.mp h
    rw [ih hrest, stackWords_of_push hpush, List.append_assoc]
    rfl

/-- **The words of a tree are the words that build it, with canonical numbers.** -/
theorem postfixWords_of_toTree {words : List String} {t : Expr} (h : toTree words = .ok t) :
    t.postfixWords = words.map canonical := by
  unfold toTree at h
  split at h
  · rename_i built hbuilt
    cases h
    simpa [stackWords] using stackWords_of_foldlM hbuilt
  · cases h
  · cases h

/-! ## Numbers and operators -/

/-- The word reads as a number. -/
def isNumeric (word : String) : Bool := (Number.ofText? word).isSome

@[simp] theorem isNumeric_text (v : Number) : isNumeric v.text = true := by
  rw [isNumeric, Number.ofText?_text]
  rfl

@[simp] theorem isNumeric_operatorText (op : Operator) : isNumeric op.text = false := by
  rw [isNumeric, Number.ofText?_operatorText]
  rfl

theorem isNumeric_canonical (word : String) : isNumeric (canonical word) = isNumeric word := by
  cases hread : Number.ofText? word with
  | none => rw [canonical_of_ofText?_none hread]
  | some v =>
    rw [canonical_of_ofText? hread, isNumeric_text, isNumeric, hread]
    rfl

theorem length_postfixWords (t : Expr) :
    t.postfixWords.length + 1 = 2 * t.postfixWords.countP isNumeric := by
  induction t with
  | number v => simp [Expr.postfixWords]
  | binary op l r ihl ihr =>
    simp [Expr.postfixWords]
    omega

/-- Words that build a tree have one number more than operators. -/
theorem length_of_toTree {words : List String} {t : Expr} (h : toTree words = .ok t) :
    words.length + 1 = 2 * words.countP isNumeric := by
  have hlength := length_postfixWords t
  have hcount : (words.map canonical).countP isNumeric = words.countP isNumeric := by
    rw [List.countP_map]
    exact List.countP_congr fun word _ => by simp [isNumeric_canonical]
  rwa [postfixWords_of_toTree h, List.length_map, hcount] at hlength

end Postfix

end InfixCalc
