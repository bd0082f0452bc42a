import InfixCalc.Proofs.Parsing
/-!
# Reading back the infix text of a tree

The infix text of a tree is an expression with that tree as long as no number in it needs more than
digits and a point. A sign in front of a number is read as an operator too many, and the words for the
other values have strange characters.

Main statements: `Expr.parse_infixText_of_plain` and `Expr.isPlain_of_parse_infixText`.
-/

namespace InfixCalc

open Lexeme Token

/-- The value is finite and its sign bit is clear. -/
def Number.IsPlain (v : Number) : Prop := v.isFinite = true ∧ v.isNegative = false

namespace Expr

/-- The numbers of a tree from left to right. -/
def leaves : Expr → List Number
  | number v => [v]
  | binary _ l r => l.leaves ++ r.leaves

/-- The tokens of the infix text of a tree with finite numbers. -/
def infixTokens : Expr → List Token
  | number (.finite s a) =>
    (if s then [.operator .subtract] else []) ++
      [.number (String.ofList (a.shortest .up).positional)]
  | number _ => []
  | binary op l r => .opening :: (l.infixTokens ++ .operator op :: r.infixTokens ++ [.closing])

/-! ## Scanning the text -/

theorem toList_infixText_binary (op : Operator) (l r : Expr) :
    (binary op l r).infixText.toList = ['('] ++ (l.infixText.toList ++ ([' '] ++ ([op.symbol] ++
      ([' '] ++ (r.infixText.toList ++ [')']))))) := by
  simp [infixText, Operator.text, Char.toString]

end Expr

theorem scans_operator (op : Operator) (rest : List Char) :
    Scans [op.symbol] [.operator op] rest := by
  have htoken : ofChar op.symbol = .operator op := by cases op <;> rfl
  rw [← htoken]
  exact .symbol (by cases op <;> rfl) (by cases op <;> rfl)

theorem parted_cons {c : Char} (h : isNumeral c = false) (cs : List Char) : Parted (c :: cs) := by
  simpa [Parted] using h

theorem isNumeral_of_mem_positional {d : Decimal} {c : Char} (h : c ∈ d.positional) :
    isNumeral c = true := by
  rcases Decimal.mem_positional h with hc | rfl
  · simp [isNumeral, hc]
  · rfl

theorem scans_positional (d : Decimal) {rest : List Char} (hrest : Parted rest) :
    Scans d.positional [.number (String.ofList d.positional)] rest := by
  obtain ⟨c, cs, hcons, -⟩ := d.positional_eq_cons
  exact .numeral (by simp [hcons]) (fun _ hc => isNumeral_of_mem_positional hc) hrest

theorem scans_finite (s : Bool) (a : Magnitude) {rest : List Char} (hrest : Parted rest) :
    Scans (Number.finite s a).text.toList (Expr.number (.finite s a)).infixTokens rest := by
  rw [Number.toList_text_finite]
  cases s with
  | false => exact scans_positional _ hrest
  | true => exact (scans_operator .subtract _).append (scans_positional _ hrest)

theorem Expr.scans_infixText (t : Expr) (hfinite : ∀ v ∈ t.leaves, v.isFinite = true)
    {rest : List Char} (hrest : Parted rest) : Scans t.infixText.toList t.infixTokens rest := by
  induction t generalizing rest with
  | number v =>
    match v with
    | .finite s a => exact scans_finite s a hrest
    | .infinite _ | .nan _ => cases hfinite _ List.mem_cons_self
  | binary op l r ihl ihr =>
    have hl := @ihl fun v hv => hfinite v (List.mem_append_left _ hv)
    have hr := @ihr fun v hv => hfinite v (List.mem_append_right _ hv)
    have hopening (rest) : Scans ['('] [.opening] rest := .symbol rfl rfl
    have hclosing (rest) : Scans [')'] [.closing] rest := .symbol rfl rfl
    have hblank (rest) : Scans [' '] [] rest := .separator rfl
    have hright := (hblank _).append ((hr (parted_cons rfl rest)).append (hclosing rest))
    have hinside := (hl (parted_cons rfl _)).append
      ((hblank _).append ((scans_operator op _).append hright))
    have hwhole := (hopening _).append hinside
    rw [toList_infixText_binary]
    simpa [infixTokens] using hwhole

theorem Expr.ofSource_infixText {t : Expr} (hfinite : ∀ v ∈ t.leaves, v.isFinite = true) :
    Token.ofSource t.infixText = t.infixTokens :=
  (t.scans_infixText hfinite (by simp [Parted])).ofSource_eq

/-! ## Plain numbers -/

theorem Expr.derives_infixTokens {t : Expr} (hplain : ∀ v ∈ t.leaves, v.IsPlain) :
    Derives .primary t.infixTokens t := by
  induction t with
  | number v =>
    match v, hplain v List.mem_cons_self with
    | .finite false a, _ =>
      have hread := Number.ofText?_text (.finite false a)
      have htext : (Number.finite false a).text = String.ofList (a.shortest .up).positional :=
        String.empty_append
      rw [htext] at hread
      exact .number hread
  | binary op l r ihl ihr =>
    have hl := ihl fun v hv => hplain v (List.mem_append_left _ hv)
    have hr := ihr fun v hv => hplain v (List.mem_append_right _ hv)
    exact .group (hl.binary op hr)

theorem Expr.parse_infixText_of_plain {t : Expr} (hplain : ∀ v ∈ t.leaves, v.IsPlain) :
    parse t.infixText = Postfix.limited t := by
  apply Derives.parse_eq
  rw [ofSource_infixText fun v hv => (hplain v hv).1]
  exact (derives_infixTokens hplain).ofPrimaryAt _

/-! ## Other numbers -/

theorem Expr.mem_infixText {t : Expr} {v : Number} (hv : v ∈ t.leaves) {c : Char}
    (hc : c ∈ v.text.toList) : c ∈ t.infixText.toList := by
  induction t with
  | number w =>
    obtain rfl := List.mem_singleton.mp hv
    exact hc
  | binary op l r ihl ihr =>
    rw [toList_infixText_binary]
    rcases List.mem_append.mp hv with hv | hv
    · simp [ihl hv]
    · simp [ihr hv]

theorem Number.exists_isStrange {v : Number} (h : v.isFinite = false) :
    ∃ c ∈ v.text.toList, isStrange c = true := by
  match v with
  | .nan true | .nan false => exact ⟨'N', by decide +kernel, by decide⟩
  | .infinite true | .infinite false => exact ⟨'i', by decide +kernel, by decide⟩

/-- A text that is parsed comes from finite numbers. -/
theorem Expr.isFinite_of_parse_infixText {t u : Expr} (h : parse t.infixText = .ok u) :
    ∀ v ∈ t.leaves, v.isFinite = true := by
  intro v hv
  by_contra hinfinite
  obtain ⟨c, hc, hstrange⟩ := Number.exists_isStrange (by simpa using hinfinite)
  obtain ⟨words, hwords, -⟩ := parse_eq_ok_iff.mp h
  exact (Postfix.ofSource_eq_ok_iff.mp hwords).1 c
    (unknown_mem_scanFrom hstrange (mem_infixText hv hc) 0)

/-- Each negative number brings an operator of its own. -/
theorem Expr.count_infixTokens {t : Expr} (hfinite : ∀ v ∈ t.leaves, v.isFinite = true) :
    t.infixTokens.countP isNumber = t.leaves.length ∧
      t.infixTokens.countP isOperator + 1 =
        t.leaves.length + t.leaves.countP Number.isNegative := by
  induction t with
  | number v =>
    match v with
    | .finite true _ | .finite false _ => exact ⟨rfl, rfl⟩
    | .infinite _ | .nan _ => cases hfinite _ List.mem_cons_self
  | binary op l r ihl ihr =>
    obtain ⟨hl, hl'⟩ := ihl fun v hv => hfinite v (List.mem_append_left _ hv)
    obtain ⟨hr, hr'⟩ := ihr fun v hv => hfinite v (List.mem_append_right _ hv)
    simp [infixTokens, leaves, isNumber, isOperator, List.countP_cons, hl, hr] at *
    omega

/-- Only a text without signs has the right number of operators. -/
theorem Expr.isPlain_of_parse_infixText {t u : Expr} (h : parse t.infixText = .ok u) :
    ∀ v ∈ t.leaves, v.IsPlain := by
  have hfinite := isFinite_of_parse_infixText h
  have hnumbers := numbers_of_parse h
  obtain ⟨hcount, hcount'⟩ := count_infixTokens hfinite
  rw [ofSource_infixText hfinite] at hnumbers
  have hnone : t.leaves.countP Number.isNegative = 0 := by omega
  intro v hv
  exact ⟨hfinite v hv, by simpa using List.countP_eq_zero.mp hnone v hv⟩

/-- **The infix text of a tree is read back as that tree, or not at all.** It is read back exactly if
every number is finite and has a clear sign bit and the tree is not too high. If only the height is in
the way, that is the error. -/
theorem parse_infixText (t : Expr) :
    (∀ u, Expr.parse t.infixText = .ok u ↔
      u = t ∧ (∀ v ∈ t.leaves, v.IsPlain) ∧ t.height ≤ Postfix.maxHeight) ∧
    ((∀ v ∈ t.leaves, v.IsPlain) → Postfix.maxHeight < t.height →
      Expr.parse t.infixText = .error (.tooDeep Postfix.maxHeight)) ∧
    ((∃ v ∈ t.leaves, ¬ v.IsPlain) → ∃ e, Expr.parse t.infixText = .error e) := by
  refine ⟨fun u => ⟨fun h => ?_, ?_⟩, fun hplain hheight => ?_, ?_⟩
  · have hplain := Expr.isPlain_of_parse_infixText h
    rw [Expr.parse_infixText_of_plain hplain, Postfix.limited] at h
    split at h
    · cases h
      exact ⟨rfl, hplain, ‹_›⟩
    · cases h
  · rintro ⟨rfl, hplain, hheight⟩
    rw [Expr.parse_infixText_of_plain hplain, Postfix.limited, if_pos hheight]
  · rw [Expr.parse_infixText_of_plain hplain, Postfix.limited, if_neg (Nat.not_le.mpr hheight)]
  · rintro ⟨v, hv, hnot⟩
    rcases hparse : Expr.parse t.infixText with e | u
    · exact ⟨e, rfl⟩
    · exact absurd (Expr.isPlain_of_parse_infixText hparse v hv) hnot

/-- The text `(0 - -0)` is read as a difference of two operands with an operator between them too many. -/
theorem parse_infixText_negative_zero :
    let t : Expr := .binary .subtract (.number .zero) (.number Number.zero.negate)
    t.infixText = "(0 - -0)" ∧ ∃ e, Expr.parse t.infixText = .error e := by
  intro t
  have hnot : ¬ Number.zero.negate.IsPlain := fun h => Bool.noConfusion h.2
  exact ⟨by decide +kernel, (parse_infixText t).2.2 ⟨Number.zero.negate, by decide, hnot⟩⟩

end InfixCalc
