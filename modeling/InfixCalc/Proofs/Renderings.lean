import InfixCalc.Proofs.InfixText
import InfixCalc.Proofs.PostfixText
import Mathlib.Data.List.TFAE
/-!
# What a written tree tells

Each of the four notations determines the tree that is written, up to the kind of a not-a-number. A tree
is read off the front of a text, whatever stands behind it, as long as that does not prolong a number;
only the postfix words are read from their end. Nothing is asked of the indent of an outline, which may
itself look like lines of it: both outlines begin with the same one.

Main statement: `renderings_tfae`.
-/

namespace InfixCalc

open Workbench

namespace Number

/-- The same bits, or two not-a-numbers. -/
def Alike (v w : Number) : Prop := v.toBits = w.toBits ∨ v.isNaN = true ∧ w.isNaN = true

theorem alike_iff_quiet_eq {v w : Number} : v.Alike w ↔ v.quiet = w.quiet := by
  constructor
  · rintro (hbits | ⟨hv, hw⟩)
    · rw [← ofBits_toBits v, hbits, ofBits_toBits]
    · cases v with
      | nan _ => cases w with
        | nan _ => rfl
        | _ => cases hw
      | _ => cases hv
  · intro h
    cases v with
    | nan _ => cases w with
      | nan _ => exact .inr ⟨rfl, rfl⟩
      | _ => cases h
    | _ => cases w with
      | nan _ => cases h
      | _ => exact .inl (congrArg toBits h)

/-- Two numbers have the same text exactly if they are alike. -/
theorem text_eq_iff {v w : Number} : v.text = w.text ↔ v.Alike w := by
  rw [alike_iff_quiet_eq]
  constructor
  · intro h
    have hread := congrArg ofText? h
    rwa [ofText?_text, ofText?_text, Option.some.injEq] at hread
  · intro h
    rw [← text_quiet v, h, text_quiet]

theorem text_ne_operatorText (v : Number) (op : Operator) : v.text ≠ op.text := by
  intro h
  have hread := congrArg ofText? h
  rw [ofText?_text, ofText?_operatorText] at hread
  cases hread

/-- The text does not go on with a character of a number. -/
def Ended (cs : List Char) : Prop := ∀ c ∈ cs.head?, isTextual c = false

theorem ended_nil : Ended [] := by simp [Ended]

theorem ended_cons {c : Char} (h : isTextual c = false) (cs : List Char) : Ended (c :: cs) := by
  simpa [Ended] using h

theorem takeWhile_text_append (v : Number) {rest : List Char} (hrest : Ended rest) :
    (v.text.toList ++ rest).takeWhile isTextual = v.text.toList := by
  have hnil : rest.takeWhile isTextual = [] := by
    cases rest with
    | nil => rfl
    | cons c cs => rw [List.takeWhile_cons_of_neg (by simp [hrest c rfl])]
  rw [List.takeWhile_append_of_pos fun c hc => isTextual_of_mem_text hc, hnil, List.append_nil]

/-- The text of a number ends where the text goes on with something else. -/
theorem text_append_inj {v w : Number} {rest rest' : List Char} (hrest : Ended rest)
    (hrest' : Ended rest') (h : v.text.toList ++ rest = w.text.toList ++ rest') :
    v.Alike w ∧ rest = rest' := by
  have htext := congrArg (List.takeWhile isTextual) h
  rw [takeWhile_text_append v hrest, takeWhile_text_append w hrest'] at htext
  rw [htext] at h
  exact ⟨text_eq_iff.mp (String.toList_inj.mp htext), List.append_cancel_left h⟩

theorem text_append_ne_opening (v : Number) (rest cs : List Char) :
    v.text.toList ++ rest ≠ '(' :: cs := by
  intro h
  rcases List.append_eq_cons_iff.mp h with ⟨hnil, -⟩ | ⟨as, hcons, -⟩
  · exact v.isWord_text.1 hnil
  · have hopening : isTextual '(' = true := isTextual_of_mem_text (hcons ▸ List.mem_cons_self)
    cases hopening

end Number

theorem Operator.text_inj {op op' : Operator} (h : op.text = op'.text) : op = op' := by
  have hread := congrArg ofText? h
  rwa [ofText?_text, ofText?_text, Option.some.injEq] at hread

theorem Operator.symbol_inj {op op' : Operator} (h : op.symbol = op'.symbol) : op = op' :=
  text_inj (congrArg Char.toString h)

namespace Expr

/-- The same shape and the same operators, and numbers that are alike at the same places. -/
inductive Alike : Expr → Expr → Prop
  | number {v w} : v.Alike w → Alike (.number v) (.number w)
  | binary {l r l' r'} (op : Operator) : Alike l l' → Alike r r' →
    Alike (.binary op l r) (.binary op l' r')

/-! ## Words -/

/-- The prefix words of a tree are read off the front of a list. -/
theorem prefixWords_append_inj {a b : Expr} {words words' : List String}
    (h : a.prefixWords ++ words = b.prefixWords ++ words') : a.Alike b ∧ words = words' := by
  induction a generalizing b words words' with
  | number v =>
    cases b with
    | number w =>
      obtain ⟨htext, hrest⟩ := List.cons.inj h
      exact ⟨.number (Number.text_eq_iff.mp htext), hrest⟩
    | binary op l r => exact absurd (List.cons.inj h).1 (v.text_ne_operatorText op)
  | binary op l r ihl ihr =>
    cases b with
    | number w => exact absurd (List.cons.inj h).1.symm (w.text_ne_operatorText op)
    | binary op' l' r' =>
      obtain ⟨hop, hrest⟩ := List.cons.inj h
      obtain rfl := Operator.text_inj hop
      simp only [List.append_eq, List.append_assoc] at hrest
      obtain ⟨hl, hrest⟩ := ihl hrest
      obtain ⟨hr, hwords⟩ := ihr hrest
      exact ⟨.binary op hl hr, hwords⟩

theorem append_postfixWords_binary (words : List String) (op : Operator) (l r : Expr) :
    words ++ (binary op l r).postfixWords =
      words ++ l.postfixWords ++ r.postfixWords ++ [op.text] := by
  simp [postfixWords]

/-- The postfix words of a tree are read from their end. -/
theorem append_postfixWords_inj {a b : Expr} {words words' : List String}
    (h : words ++ a.postfixWords = words' ++ b.postfixWords) : a.Alike b ∧ words = words' := by
  induction a generalizing b words words' with
  | number v =>
    cases b with
    | number w =>
      obtain ⟨hwords, htext⟩ := List.append_inj' h rfl
      exact ⟨.number (Number.text_eq_iff.mp (List.cons.inj htext).1), hwords⟩
    | binary op l r =>
      rw [append_postfixWords_binary] at h
      obtain ⟨-, htext⟩ := List.append_inj' h rfl
      exact absurd (List.cons.inj htext).1 (v.text_ne_operatorText op)
  | binary op l r ihl ihr =>
    rw [append_postfixWords_binary] at h
    cases b with
    | number w =>
      obtain ⟨-, htext⟩ := List.append_inj' h rfl
      exact absurd (List.cons.inj htext).1.symm (w.text_ne_operatorText op)
    | binary op' l' r' =>
      rw [append_postfixWords_binary] at h
      obtain ⟨hrest, hop⟩ := List.append_inj' h rfl
      obtain rfl := Operator.text_inj (List.cons.inj hop).1
      obtain ⟨hr, hrest⟩ := ihr hrest
      obtain ⟨hl, hwords⟩ := ihl hrest
      exact ⟨.binary op hl hr, hwords⟩

theorem wordsOf_prefixText (t : Expr) : wordsOf t.prefixText = t.prefixWords := by
  induction t with
  | number v => rw [prefixText_number, v.isWord_text.wordsOf_eq, prefixWords]
  | binary op l r ihl ihr =>
    rw [prefixText_binary, wordsOf_blank, wordsOf_blank, ihl, ihr, op.isWord_text.wordsOf_eq,
      prefixWords]
    rfl

/-! ## Infix text -/

theorem infixText_append_inj {a b : Expr} {rest rest' : List Char} (hrest : Number.Ended rest)
    (hrest' : Number.Ended rest') (h : a.infixText.toList ++ rest = b.infixText.toList ++ rest') :
    a.Alike b ∧ rest = rest' := by
  induction a generalizing b rest rest' with
  | number v =>
    cases b with
    | number w =>
      obtain ⟨hv, hrest⟩ := Number.text_append_inj hrest hrest' h
      exact ⟨.number hv, hrest⟩
    | binary op l r =>
      rw [toList_infixText_binary] at h
      exact absurd h (v.text_append_ne_opening _ _)
  | binary op l r ihl ihr =>
    rw [toList_infixText_binary] at h
    cases b with
    | number w => exact absurd h.symm (w.text_append_ne_opening _ _)
    | binary op' l' r' =>
      rw [toList_infixText_binary] at h
      simp only [List.append_assoc, List.cons_append, List.nil_append, List.cons.injEq, true_and] at h
      have hblank (cs : List Char) : Number.Ended (' ' :: cs) := Number.ended_cons (by decide) cs
      have hclosing (cs : List Char) : Number.Ended (')' :: cs) := Number.ended_cons (by decide) cs
      obtain ⟨hl, hright⟩ := ihl (hblank _) (hblank _) h
      simp only [List.cons.injEq, true_and] at hright
      obtain ⟨hop, hright⟩ := hright
      obtain ⟨hr, hend⟩ := ihr (hclosing _) (hclosing _) hright
      obtain rfl := Operator.symbol_inj hop
      exact ⟨.binary op hl hr, (List.cons.inj hend).2⟩

/-! ## Outline -/

theorem toList_outline_binary (indent : String) (op : Operator) (l r : Expr) :
    ((binary op l r).outline indent).toList = indent.toList ++ ("Operator: ".toList ++
      op.symbol :: '\n' :: ((l.outline (indent ++ "  ")).toList ++
        '\n' :: (r.outline (indent ++ "  ")).toList)) := by
  simp [outline_binary, Operator.text, Char.toString]

theorem outline_number_append_ne_binary {indent : String} {v : Number} {op : Operator} {l r : Expr}
    {rest rest' : List Char} :
    ((number v).outline indent).toList ++ rest ≠ ((binary op l r).outline indent).toList ++ rest' := by
  simp [outline_number, outline_binary]

theorem outline_append_inj {indent : String} {a b : Expr} {rest rest' : List Char}
    (hrest : Number.Ended rest) (hrest' : Number.Ended rest')
    (h : (a.outline indent).toList ++ rest = (b.outline indent).toList ++ rest') :
    a.Alike b ∧ rest = rest' := by
  induction a generalizing indent b rest rest' with
  | number v =>
    cases b with
    | number w =>
      simp only [outline_number, String.toList_append, List.append_assoc] at h
      obtain ⟨hv, hrest⟩ := Number.text_append_inj hrest hrest'
        (List.append_cancel_left (List.append_cancel_left h))
      exact ⟨.number hv, hrest⟩
    | binary op l r => exact absurd h outline_number_append_ne_binary
  | binary op l r ihl ihr =>
    cases b with
    | number w => exact absurd h.symm outline_number_append_ne_binary
    | binary op' l' r' =>
      simp only [toList_outline_binary, List.append_assoc, List.cons_append] at h
      have hnewline (cs : List Char) : Number.Ended ('\n' :: cs) := Number.ended_cons (by decide) cs
      obtain ⟨hop, hleft⟩ := List.cons.inj (List.append_cancel_left (List.append_cancel_left h))
      obtain ⟨hl, hright⟩ := ihl (hnewline _) (hnewline _) (List.cons.inj hleft).2
      obtain ⟨hr, hend⟩ := ihr hrest hrest' (List.cons.inj hright).2
      obtain rfl := Operator.symbol_inj hop
      exact ⟨.binary op hl hr, hend⟩

/-! ## All notations -/

/-- Trees that are alike are written alike. -/
theorem Alike.renderings_eq {a b : Expr} (h : a.Alike b) :
    a.prefixWords = b.prefixWords ∧ a.postfixWords = b.postfixWords ∧
      a.infixText = b.infixText ∧ ∀ indent, a.outlineLines indent = b.outlineLines indent := by
  induction h with
  | number hv =>
    have htext := Number.text_eq_iff.mpr hv
    simp [prefixWords, postfixWords, infixText, outlineLines, htext]
  | binary op _ _ ihl ihr =>
    obtain ⟨hl₁, hl₂, hl₃, hl₄⟩ := ihl
    obtain ⟨hr₁, hr₂, hr₃, hr₄⟩ := ihr
    simp [prefixWords, postfixWords, infixText, outlineLines, hl₁, hl₂, hl₃, hl₄, hr₁, hr₂, hr₃, hr₄]

end Expr

/-- **Each notation determines the tree, and so the other three.** Two trees are written alike in one
notation exactly if they have the same shape, the same operators and the same numbers, with every
not-a-number taken for the same. The outlines may be indented in any way. -/
theorem renderings_tfae (a b : Expr) (indent : String) :
    List.TFAE [
      a.Alike b,
      a.prefixText = b.prefixText,
      a.postfixText = b.postfixText,
      a.infixText = b.infixText,
      a.outline indent = b.outline indent] := by
  tfae_have 1 → 2 := fun h => congrArg (" ".intercalate ·) h.renderings_eq.1
  tfae_have 1 → 3 := fun h => congrArg (" ".intercalate ·) h.renderings_eq.2.1
  tfae_have 1 → 4 := fun h => h.renderings_eq.2.2.1
  tfae_have 1 → 5 := fun h => congrArg ("\n".intercalate ·) (h.renderings_eq.2.2.2 indent)
  tfae_have 2 → 1 := fun h => by
    have hwords := congrArg wordsOf h
    rw [a.wordsOf_prefixText, b.wordsOf_prefixText] at hwords
    exact (Expr.prefixWords_append_inj (congrArg (· ++ []) hwords)).1
  tfae_have 3 → 1 := fun h => by
    have hwords := congrArg wordsOf h
    rw [a.wordsOf_postfixText, b.wordsOf_postfixText] at hwords
    exact (Expr.append_postfixWords_inj (congrArg ([] ++ ·) hwords)).1
  tfae_have 4 → 1 := fun h =>
    (Expr.infixText_append_inj Number.ended_nil Number.ended_nil
      (congrArg (·.toList ++ []) h)).1
  tfae_have 5 → 1 := fun h =>
    (Expr.outline_append_inj Number.ended_nil Number.ended_nil
      (congrArg (·.toList ++ []) h)).1
  tfae_finish

end InfixCalc
