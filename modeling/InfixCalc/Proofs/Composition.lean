import InfixCalc.Proofs.InfixText
import InfixCalc.Proofs.Partition
import InfixCalc.Proofs.Relocation
import InfixCalc.Proofs.Subtrees
/-!
# Sources put together

A source in parentheses is converted as it is on its own, wherever it stands: what waits on the stack
below the opening parenthesis is out of reach until the group is closed, and closing it releases just
what the end of the source would have released. Nothing is asked of the source but that its conversion
succeeds; it need not be an expression.

Main statements:

* `Token.scans_source`: the tokens of a source in front of another text;
* `Postfix.feed_above_opening`: lexemes above an opening parenthesis do what they do on an empty stack;
* `ofSource_parenthesized`: sources in parentheses, alone and on both sides of an operator.
-/

namespace InfixCalc

/-- A source in parentheses. -/
def parenthesized (source : String) : String := "(" ++ source ++ ")"

/-! ## Scanning a source in front of another text -/

namespace Token

open Lexeme

theorem parted_append {cs rest : List Char} (hcs : Parted cs) (hrest : Parted rest) :
    Parted (cs ++ rest) := by
  cases cs with
  | nil => exact hrest
  | cons c cs => exact hcs

/-- The tokens of a text do not depend on what follows, unless it prolongs a number. -/
theorem exists_scans (cs : List Char) :
    ∃ ts, ∀ rest, Parted rest → Scans cs ts rest := by
  match cs with
  | [] => exact ⟨[], fun rest _ start => rfl⟩
  | c :: cs =>
    by_cases hsep : isSeparator c = true
    · obtain ⟨ts, hts⟩ := exists_scans cs
      exact ⟨ts, fun rest hrest => (Scans.separator hsep).append (hts rest hrest)⟩
    by_cases hnum : isNumeral c = true
    · -- The whole run is one token, so the induction goes on behind it.
      have hlen := (List.dropWhile_sublist isNumeral (l := cs)).length_le
      obtain ⟨ts, hts⟩ := exists_scans (cs.dropWhile isNumeral)
      have hrun : ∀ d ∈ c :: cs.takeWhile isNumeral, isNumeral d = true :=
        List.forall_mem_cons.mpr ⟨hnum, List.all_eq_true.mp List.all_takeWhile⟩
      have hcs : c :: cs = (c :: cs.takeWhile isNumeral) ++ cs.dropWhile isNumeral := by
        rw [List.cons_append, List.takeWhile_append_dropWhile]
      rw [hcs]
      refine ⟨[.number (String.ofList (c :: cs.takeWhile isNumeral))] ++ ts, fun rest hrest => ?_⟩
      have hparted := parted_append (parted_dropWhile cs) hrest
      exact (Scans.numeral (List.cons_ne_nil _ _) hrun hparted).append (hts rest hrest)
    · obtain ⟨ts, hts⟩ := exists_scans cs
      have hsymbol (rest : List Char) : Scans [c] [ofChar c] rest :=
        .symbol (Bool.eq_false_iff.mpr hsep) (Bool.eq_false_iff.mpr hnum)
      exact ⟨[ofChar c] ++ ts, fun rest hrest => (hsymbol _).append (hts rest hrest)⟩
termination_by cs.length

theorem scans_source (source : String) {rest : List Char} (hrest : Parted rest) :
    Scans source.toList (ofSource source) rest := by
  obtain ⟨ts, hts⟩ := exists_scans source.toList
  have hnil : Parted [] := by simp [Parted]
  rw [(hts [] hnil).ofSource_eq]
  exact hts rest hrest

theorem scans_parenthesized (source : String) (rest : List Char) :
    Scans (parenthesized source).toList (.opening :: (ofSource source ++ [.closing])) rest := by
  have hlist : (parenthesized source).toList = ['('] ++ (source.toList ++ [')']) := by simp [parenthesized]
  have hopening (rest : List Char) : Scans ['('] [.opening] rest := .symbol rfl rfl
  have hclosing : Scans [')'] [.closing] rest := .symbol rfl rfl
  rw [hlist]
  exact (hopening _).append ((scans_source source (parted_cons rfl rest)).append hclosing)

theorem ofSource_parenthesized (source : String) :
    ofSource (parenthesized source) = .opening :: (ofSource source ++ [.closing]) :=
  (scans_parenthesized source []).ofSource_eq

theorem ofSource_operation (a b : String) (op : Operator) :
    ofSource (parenthesized a ++ op.text ++ parenthesized b) =
      ofSource (parenthesized a) ++ .operator op :: ofSource (parenthesized b) := by
  apply Scans.ofSource_eq
  have hlist : (parenthesized a ++ op.text ++ parenthesized b).toList =
      (parenthesized a).toList ++ ([op.symbol] ++ (parenthesized b).toList) := by
    simp [Operator.text, Char.toString]
  rw [hlist, ofSource_parenthesized, ofSource_parenthesized]
  exact (scans_parenthesized a _).append ((scans_operator op _).append (scans_parenthesized b []))

end Token

/-! ## Groups -/

namespace Postfix

/-- Nothing is released from below an opening parenthesis. -/
theorem release_above_opening (p : Operator → Bool) (stack : List Pending) (span : Span)
    (below : List Pending) :
    release p (stack ++ .opening span :: below) =
      ((release p stack).1, (release p stack).2 ++ .opening span :: below) := by
  induction stack with
  | nil => rfl
  | cons entry stack ih =>
    cases entry with
    | opening _ => rfl
    | operator op =>
      simp only [List.cons_append, release, ih]
      split <;> rfl

section
variable {stack next last : List Pending} {lexeme : Lexeme} {lexemes : List Lexeme}
  {words : List String} (span : Span) (below : List Pending)

theorem step_above_opening (h : step stack lexeme = .ok (words, next)) :
    step (stack ++ .opening span :: below) lexeme = .ok (words, next ++ .opening span :: below) := by
  obtain ⟨token, place⟩ := lexeme
  unfold step at h ⊢
  cases token with
  | number text =>
    dsimp only at h ⊢
    split at h
    · cases h
      rfl
    · cases h
  | operator op =>
    cases h
    simp only [release_above_opening, List.cons_append]
  | opening =>
    cases h
    rfl
  | closing =>
    dsimp only at h ⊢
    split at h
    · rename_i ops rest hclose
      obtain ⟨inner, rfl⟩ := closeGroup?_eq_some_iff.mp hclose
      cases h
      have hclose' : closeGroup? (ops.map .operator ++ .opening inner :: next ++
          .opening span :: below) = some (ops, next ++ .opening span :: below) :=
        closeGroup?_eq_some_iff.mpr ⟨inner, List.append_assoc ..⟩
      rw [hclose']
    · cases h
  | unknown c => cases h

/-- **Lexemes above an opening parenthesis do what they do on an empty stack,** as long as they do not
close its group. -/
theorem feed_above_opening (h : feed stack lexemes = .ok (words, last)) :
    feed (stack ++ .opening span :: below) lexemes =
      .ok (words, last ++ .opening span :: below) := by
  induction lexemes generalizing stack words with
  | nil =>
    cases h
    rfl
  | cons lexeme lexemes ih =>
    rw [feed_cons, Except.bind_eq_ok_iff] at h
    obtain ⟨⟨passed, next⟩, hstep, h⟩ := h
    obtain ⟨⟨words', last'⟩, hfeed, h⟩ := Except.map_eq_ok_iff.mp h
    cases h
    rw [feed_cons, step_above_opening span below hstep]
    simp only [Except.bind, ih hfeed, Except.map]

end

/-- On every stack the tokens pass on the words and leave the stack as it was. -/
def Passes (ts : List Token) (words : List String) : Prop :=
  ∀ lexemes : List Lexeme, lexemes.map (·.token) = ts →
    ∀ stack, feed stack lexemes = .ok (words, stack)

section
variable {ts us : List Token} {words words' : List String} {lexemes lexemes' : List Lexeme}

/-- Where the lexemes stand does not matter to the words. -/
theorem ofLexemes_eq_ok_of_tokens (h : ofLexemes lexemes = .ok words)
    (htokens : lexemes'.map (·.token) = lexemes.map (·.token)) : ofLexemes lexemes' = .ok words := by
  have hresult := ofLexemes_relocate (fun _ => ⟨0, 0⟩) lexemes'
  rw [map_relocate_of_tokens htokens, ofLexemes_relocate, h] at hresult
  cases hwords : ofLexemes lexemes' with
  | ok words' =>
    rw [hwords] at hresult
    cases hresult
    rfl
  | error e =>
    rw [hwords] at hresult
    cases hresult

/-- **A group passes on what its lexemes are converted into.** Closing it and coming to the end release
the same operators. -/
theorem passes_group (h : ∀ lexemes : List Lexeme, lexemes.map (·.token) = ts →
    ofLexemes lexemes = .ok words) : Passes (.opening :: (ts ++ [.closing])) words := by
  intro lexemes htokens stack
  obtain ⟨⟨_, span⟩, _, rfl, rfl, hrest⟩ := List.map_eq_cons_iff.mp htokens
  obtain ⟨inner, span', last, rfl, hinner, hlast⟩ := exists_of_map_eq_append hrest
  obtain rfl := List.map_eq_nil_iff.mp hlast
  obtain ⟨passed, ops, hfeed, rfl⟩ := ofLexemes_eq_ok_iff.mp (h inner hinner)
  have hgroup := feed_above_opening span stack hfeed
  have hclose : closeGroup? (ops.map .operator ++ .opening span :: stack) = some (ops, stack) :=
    closeGroup?_eq_some_iff.mpr ⟨span, rfl⟩
  rw [feed_cons]
  show (feed ([] ++ .opening span :: stack) (inner ++ _)).map _ = _
  rw [feed_append, hgroup]
  simp [Except.bind, feed, step, hclose, Except.map]

theorem Passes.ofLexemes_eq (h : Passes ts words) (htokens : lexemes.map (·.token) = ts) :
    ofLexemes lexemes = .ok words := by
  refine ofLexemes_eq_ok_iff.mpr ⟨words, [], h lexemes htokens [], ?_⟩
  rw [List.map_nil, List.append_nil]

/-- An operator between two groups waits until the end. -/
theorem Passes.operation (h : Passes ts words) (h' : Passes us words') (op : Operator)
    (htokens : lexemes.map (·.token) = ts ++ .operator op :: us) :
    ofLexemes lexemes = .ok (words ++ words' ++ [op.text]) := by
  obtain ⟨left, span, right, rfl, hleft, hright⟩ := exists_of_map_eq_append htokens
  refine ofLexemes_eq_ok_iff.mpr ⟨words ++ words', [op], ?_, rfl⟩
  rw [feed_append, h left hleft]
  simp [Except.bind, feed_cons, step, release, h' right hright, Except.map]

end

/-! ## Source texts -/

section
variable {a b source : String} {p q words : List String}

theorem passes_parenthesized (h : ofSource source = .ok words) :
    Passes (Token.ofSource (parenthesized source)) words := by
  rw [Token.ofSource_parenthesized]
  apply passes_group
  intro lexemes htokens
  exact ofLexemes_eq_ok_of_tokens (ofSource_eq_ok_iff.mp h).2 htokens

theorem unknown_not_mem_parenthesized (h : ofSource source = .ok words) (c : Char) :
    .unknown c ∉ Token.ofSource (parenthesized source) := by
  rw [Token.ofSource_parenthesized]
  simpa using (ofSource_eq_ok_iff.mp h).1 c

theorem ofSource_parenthesized_eq (h : ofSource source = .ok words) :
    ofSource (parenthesized source) = .ok words :=
  ofSource_eq_ok_iff.mpr ⟨unknown_not_mem_parenthesized h, (passes_parenthesized h).ofLexemes_eq rfl⟩

theorem ofSource_iterate_parenthesized (h : ofSource source = .ok words) (n : Nat) :
    ofSource (parenthesized^[n] source) = .ok words := by
  induction n with
  | zero => exact h
  | succ n ih =>
    rw [Function.iterate_succ_apply']
    exact ofSource_parenthesized_eq ih

theorem ofSource_operation (ha : ofSource a = .ok p) (hb : ofSource b = .ok q) (op : Operator) :
    ofSource (parenthesized a ++ op.text ++ parenthesized b) = .ok (p ++ q ++ [op.text]) := by
  have htokens := Token.ofSource_operation a b op
  refine ofSource_eq_ok_iff.mpr ⟨fun c => ?_, ?_⟩
  · rw [htokens, List.mem_append, List.mem_cons]
    rintro (hmem | hmem | hmem)
    · exact unknown_not_mem_parenthesized ha c hmem
    · cases hmem
    · exact unknown_not_mem_parenthesized hb c hmem
  · exact (passes_parenthesized ha).operation (passes_parenthesized hb) op htokens

end

end Postfix

theorem Expr.parse_operation {a b : String} {t u : Expr} (ha : parse a = .ok t)
    (hb : parse b = .ok u) (op : Operator) :
    parse (parenthesized a ++ op.text ++ parenthesized b) = Postfix.limited (.binary op t u) := by
  obtain ⟨p, hp, ht⟩ := parse_eq_ok_iff.mp ha
  obtain ⟨q, hq, hu⟩ := parse_eq_ok_iff.mp hb
  have hdenotes := Postfix.Denotes.binary op (Postfix.denotes_of_toTree ht).1
    (Postfix.denotes_of_toTree hu).1
  rw [parse_eq_of_ofSource (Postfix.ofSource_operation hp hq op), hdenotes.toTree_eq]

/-- **Sources are put together by parentheses.** If two sources are converted, then in parentheses each of
them is converted into the same words, however many parentheses there are, and with an operator between
them into the words of both and the operator. So the trees are put together by the operator, unless the
result is too high, and parentheses around a whole source never change what it is parsed into. -/
theorem parenthesized_operation {a b : String} {p q : List String}
    (ha : Postfix.ofSource a = .ok p) (hb : Postfix.ofSource b = .ok q) (op : Operator) :
    Postfix.ofSource ("(" ++ a ++ ")") = .ok p ∧
    Postfix.ofSource ("(" ++ a ++ ")" ++ op.text ++ "(" ++ b ++ ")") = .ok (p ++ q ++ [op.text]) ∧
    (∀ t u, Expr.parse a = .ok t → Expr.parse b = .ok u →
      Expr.parse ("(" ++ a ++ ")" ++ op.text ++ "(" ++ b ++ ")") =
        if 1 + max t.height u.height ≤ Postfix.maxHeight then .ok (.binary op t u)
        else .error (.tooDeep Postfix.maxHeight)) ∧
    ∀ n, Postfix.ofSource (parenthesized^[n] a) = .ok p ∧
      Expr.parse (parenthesized^[n] a) = Expr.parse a := by
  have hsource : "(" ++ a ++ ")" ++ op.text ++ "(" ++ b ++ ")" =
      parenthesized a ++ op.text ++ parenthesized b := by
    simp only [parenthesized, String.append_assoc]
  rw [hsource]
  refine ⟨Postfix.ofSource_parenthesized_eq ha, Postfix.ofSource_operation ha hb op,
    fun t u ht hu => Expr.parse_operation ht hu op, fun n => ?_⟩
  have hwords := Postfix.ofSource_iterate_parenthesized ha n
  refine ⟨hwords, ?_⟩
  rw [Expr.parse_eq_of_ofSource hwords, Expr.parse_eq_of_ofSource ha]

/-- A blank source and two operands without an operator are put together like expressions, and so is an
operator behind its operands. -/
theorem parenthesized_operation_blank :
    let one : Expr := .number (.ofBits 0x3ff0000000000000)
    let two : Expr := .number (.ofBits 0x4000000000000000)
    Postfix.ofSource "( )^(1 2)" = .ok ["1", "2", "^"] ∧
      Expr.parse "(1 2 +)-(2)" = .ok (.binary .subtract (.binary .add one two) two) ∧
      Expr.parse "(((1 2 +)))" = .ok (.binary .add one two) := by
  intro one two
  have hblank : Postfix.ofSource " " = .ok [] := by decide +kernel
  have hpair : Postfix.ofSource "1 2" = .ok ["1", "2"] := by decide +kernel
  have hsum : Postfix.ofSource "1 2 +" = .ok ["1", "2", "+"] := by decide +kernel
  have htwo : Postfix.ofSource "2" = .ok ["2"] := by decide +kernel
  have hsum' : Expr.parse "1 2 +" = .ok (.binary .add one two) := by decide +kernel
  have htwo' : Expr.parse "2" = .ok two := by decide +kernel
  have hdifference := (parenthesized_operation hsum htwo .subtract).2.2.1 _ _ hsum' htwo'
  exact ⟨(parenthesized_operation hblank hpair .power).2.1, hdifference.trans (if_pos (by decide)),
    ((parenthesized_operation hsum htwo .subtract).2.2.2 3).2.trans hsum'⟩

end InfixCalc
