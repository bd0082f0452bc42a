import InfixCalc.Postfix.Conversion
import InfixCalc.Proofs.Grammar
import InfixCalc.Proofs.Results
/-!
# The conversion to postfix order

What the steps of the conversion do to the stack, and what they keep: whatever the lexemes are, no word
is lost and no group forgotten.

Main statements:

* `Postfix.perm_of_ofLexemes`: a conversion that succeeds only reorders the words of the tokens;
* `Postfix.openGroups?_of_ofLexemes`: a conversion that succeeds has found the parentheses balanced.
-/

namespace InfixCalc

namespace Postfix

/-! ## The stack -/

/-- The operators that wait, the topmost first. -/
def waiting : List Pending → List Operator
  | [] => []
  | .opening _ :: stack => waiting stack
  | .operator op :: stack => op :: waiting stack

/-- The number of open groups. -/
def depth : List Pending → Nat
  | [] => 0
  | .opening _ :: stack => depth stack + 1
  | .operator _ :: stack => depth stack

@[simp] theorem waiting_append (ops : List Operator) (stack : List Pending) :
    waiting (ops.map .operator ++ stack) = ops ++ waiting stack := by
  induction ops with
  | nil => rfl
  | cons op ops ih => exact congrArg (op :: ·) ih

@[simp] theorem depth_append (ops : List Operator) (stack : List Pending) :
    depth (ops.map .operator ++ stack) = depth stack := by
  induction ops with
  | nil => rfl
  | cons op ops ih => exact ih

/-- No operator on top of the stack satisfies the condition. -/
def Stops (p : Operator → Bool) (stack : List Pending) : Prop :=
  ∀ op below, stack = .operator op :: below → p op = false

theorem release_append {p : Operator → Bool} {ops : List Operator} {stack : List Pending}
    (hops : ∀ op ∈ ops, p op = true) (hstack : Stops p stack) :
    release p (ops.map .operator ++ stack) = (ops, stack) := by
  induction ops with
  | nil =>
    match stack with
    | [] | .opening _ :: _ => rfl
    | .operator op :: below => simp [release, hstack op below rfl]
  | cons op ops ih =>
    obtain ⟨hop, hops⟩ := List.forall_mem_cons.mp hops
    simp [release, hop, ih hops]

/-- What is released lay on top of the rest. -/
theorem release_spec (p : Operator → Bool) (stack : List Pending) :
    stack = (release p stack).1.map .operator ++ (release p stack).2 := by
  induction stack with
  | nil => rfl
  | cons entry stack ih =>
    match entry with
    | .opening _ => rfl
    | .operator op =>
      simp only [release]
      split
      · exact congrArg (Pending.operator op :: ·) ih
      · rfl

theorem closeGroup?_eq_some_iff {stack rest : List Pending} {ops : List Operator} :
    closeGroup? stack = some (ops, rest) ↔
      ∃ span, stack = ops.map .operator ++ .opening span :: rest := by
  induction stack generalizing ops with
  | nil => simp [closeGroup?]
  | cons entry stack ih =>
    cases entry with
    | opening span => cases ops <;> simp [closeGroup?]
    | operator op =>
      cases ops with
      | nil => simp [closeGroup?]
      | cons op' ops =>
        simp only [closeGroup?, Option.map_eq_some_iff, Prod.exists, Prod.mk.injEq, List.cons.injEq,
          List.map_cons, List.cons_append, Pending.operator.injEq]
        constructor
        · rintro ⟨_, _, hclose, ⟨rfl, rfl⟩, rfl⟩
          obtain ⟨span, rfl⟩ := ih.mp hclose
          exact ⟨span, rfl, rfl⟩
        · rintro ⟨span, rfl, rfl⟩
          exact ⟨_, _, ih.mpr ⟨span, rfl⟩, ⟨rfl, rfl⟩, rfl⟩

theorem drain_eq_ok_iff {stack : List Pending} {ops : List Operator} :
    drain stack = .ok ops ↔ stack = ops.map .operator := by
  induction stack generalizing ops with
  | nil => cases ops <;> simp [drain]
  | cons entry stack ih =>
    cases entry with
    | opening span => cases ops <;> simp [drain]
    | operator op =>
      rw [drain, Except.map_eq_ok_iff]
      constructor
      · rintro ⟨below, hbelow, rfl⟩
        exact congrArg (Pending.operator op :: ·) (ih.mp hbelow)
      · intro h
        obtain ⟨_, below, rfl, hop, rfl⟩ := List.map_eq_cons_iff.mp h.symm
        cases hop
        exact ⟨below, ih.mpr rfl, rfl⟩

/-! ## Steps -/

/-- What a lexeme can do: the words it passes on, and the stack behind it. -/
inductive Moves (stack : List Pending) : Token → List String → List Pending → Prop
  | number {text v} : Number.ofText? text = some v → Moves stack (.number text) [v.text] stack
  | operator {op} {ops : List Operator} {rest} : release (·.appliesBefore op) stack = (ops, rest) →
    Moves stack (.operator op) (ops.map Operator.text) (.operator op :: rest)
  | opening (span) : Moves stack .opening [] (.opening span :: stack)
  | closing {ops : List Operator} {rest span} : stack = ops.map .operator ++ .opening span :: rest →
    Moves stack .closing (ops.map Operator.text) rest

theorem Moves.of_step {stack next : List Pending} {lexeme : Lexeme} {words : List String}
    (h : step stack lexeme = .ok (words, next)) : Moves stack lexeme.token words next := by
  obtain ⟨token, span⟩ := lexeme
  unfold step at h
  cases token with
  | number text =>
    dsimp only at h
    split at h
    · cases h
      exact .number ‹_›
    · cases h
  | operator op =>
    cases h
    exact .operator rfl
  | opening =>
    cases h
    exact .opening span
  | closing =>
    dsimp only at h
    split at h
    · cases h
      obtain ⟨_, hstack⟩ := closeGroup?_eq_some_iff.mp ‹_›
      exact .closing hstack
    · cases h
  | unknown char => cases h

theorem feed_cons (stack : List Pending) (lexeme : Lexeme) (lexemes : List Lexeme) :
    feed stack (lexeme :: lexemes) = (step stack lexeme).bind fun (words, next) =>
      (feed next lexemes).map fun (rest, last) => (words ++ rest, last) := by
  rw [feed]
  cases step stack lexeme <;> rfl

theorem feed_append (stack : List Pending) (lexemes lexemes' : List Lexeme) :
    feed stack (lexemes ++ lexemes') = (feed stack lexemes).bind fun (words, next) =>
      (feed next lexemes').map fun (rest, last) => (words ++ rest, last) := by
  induction lexemes generalizing stack with
  | nil =>
    show feed stack lexemes' = (feed stack lexemes').map fun (rest, last) => ([] ++ rest, last)
    cases feed stack lexemes' <;> rfl
  | cons lexeme lexemes ih =>
    rw [List.cons_append, feed_cons, feed_cons]
    rcases step stack lexeme with e | ⟨words, next⟩
    · rfl
    simp only [Except.bind, ih]
    rcases feed next lexemes with e | ⟨words', next'⟩
    · rfl
    simp only [Except.map]
    rcases feed next' lexemes' with e | ⟨words'', last⟩
    · rfl
    simp only [List.append_assoc]

/-- A property of stack, tokens, words and last stack holds of every feed if each step extends it. -/
theorem feed_induction
    {P : List Pending → List Token → List String → List Pending → Prop}
    (hnil : ∀ stack, P stack [] [] stack)
    (hcons : ∀ {stack token words next tokens words' last}, Moves stack token words next →
      P next tokens words' last → P stack (token :: tokens) (words ++ words') last)
    {stack : List Pending} {lexemes : List Lexeme} {words : List String} {last : List Pending}
    (h : feed stack lexemes = .ok (words, last)) : P stack (lexemes.map (·.token)) words last := by
  induction lexemes generalizing stack words with
  | nil =>
    cases h
    exact hnil _
  | cons lexeme lexemes ih =>
    rw [feed_cons, Except.bind_eq_ok_iff] at h
    obtain ⟨⟨words₁, next⟩, hstep, h⟩ := h
    obtain ⟨⟨words₂, _⟩, hfeed, h⟩ := Except.map_eq_ok_iff.mp h
    cases h
    exact hcons (.of_step hstep) (ih hfeed)

/-! ## No word is lost -/

end Postfix

/-- The word of a token in a postfix list. -/
def Token.word? : Token → Option String
  | .number text => (Number.ofText? text).map Number.text
  | .operator op => some op.text
  | _ => none

namespace Postfix

theorem Moves.perm {stack next : List Pending} {token : Token} {words : List String}
    (h : Moves stack token words next) :
    (words ++ (waiting next).map Operator.text).Perm
      (token.word?.toList ++ (waiting stack).map Operator.text) := by
  cases h with
  | number hread => simp [Token.word?, hread]
  | @operator op ops rest hrelease =>
    have hstack := release_spec (·.appliesBefore op) stack
    rw [hrelease] at hstack
    simp only [hstack, waiting, waiting_append, List.map_cons, List.map_append, Token.word?,
      Option.toList_some]
    exact List.perm_middle
  | opening span => simp [Token.word?, waiting]
  | closing hstack => simp [Token.word?, waiting, hstack]

open scoped List in
theorem perm_of_feed {stack last : List Pending} {lexemes : List Lexeme} {words : List String}
    (h : feed stack lexemes = .ok (words, last)) :
    (words ++ (waiting last).map Operator.text).Perm
      ((waiting stack).map Operator.text ++ (lexemes.map (·.token)).filterMap Token.word?) := by
  refine feed_induction (P := fun stack tokens words last =>
    (words ++ (waiting last).map Operator.text).Perm
      ((waiting stack).map Operator.text ++ tokens.filterMap Token.word?)) ?_ ?_ h
  · simp
  · intro stack token words next tokens words' last hmove ih
    have hfirst : (token :: tokens).filterMap Token.word? =
        token.word?.toList ++ tokens.filterMap Token.word? := by
      cases htoken : token.word? <;> simp [htoken]
    calc
      words ++ words' ++ (waiting last).map Operator.text
        = words ++ (words' ++ (waiting last).map Operator.text) := List.append_assoc ..
      _ ~ words ++ ((waiting next).map Operator.text ++ tokens.filterMap Token.word?) :=
        ih.append_left words
      _ = words ++ (waiting next).map Operator.text ++ tokens.filterMap Token.word? :=
        (List.append_assoc ..).symm
      _ ~ token.word?.toList ++ (waiting stack).map Operator.text ++
          tokens.filterMap Token.word? := hmove.perm.append_right _
      _ ~ (waiting stack).map Operator.text ++ token.word?.toList ++
          tokens.filterMap Token.word? := List.perm_append_comm.append_right _
      _ = (waiting stack).map Operator.text ++ (token :: tokens).filterMap Token.word? := by
        rw [hfirst, List.append_assoc]

/-! ## No group is forgotten -/

theorem Moves.openGroups? {stack next : List Pending} {token : Token} {words : List String}
    (h : Moves stack token words next) (tokens : List Token) :
    openGroups? (depth stack) (token :: tokens) = openGroups? (depth next) tokens := by
  cases h with
  | number _ => rfl
  | @operator op ops rest hrelease =>
    have hstack := release_spec (·.appliesBefore op) stack
    rw [hrelease] at hstack
    rw [hstack, depth_append]
    rfl
  | opening span => rfl
  | closing hstack =>
    rw [hstack, depth_append]
    rfl

theorem openGroups?_of_feed {stack last : List Pending} {lexemes : List Lexeme}
    {words : List String} (h : feed stack lexemes = .ok (words, last)) :
    openGroups? (depth stack) (lexemes.map (·.token)) = some (depth last) := by
  refine feed_induction (P := fun stack tokens _ last =>
    openGroups? (depth stack) tokens = some (depth last)) (fun _ => rfl) ?_ h
  intro stack token words next tokens words' last hmove ih
  rw [hmove.openGroups?, ih]

/-! ## The whole conversion -/

theorem ofLexemes_eq_ok_iff {lexemes : List Lexeme} {words : List String} :
    ofLexemes lexemes = .ok words ↔ ∃ (passed : List String) (ops : List Operator),
      feed [] lexemes = .ok (passed, ops.map .operator) ∧ words = passed ++ ops.map Operator.text := by
  have hbind : ofLexemes lexemes = (feed [] lexemes).bind fun (passed, stack) =>
      (drain stack).map fun ops => passed ++ ops.map Operator.text := by
    rw [ofLexemes]
    cases feed [] lexemes <;> rfl
  rw [hbind, Except.bind_eq_ok_iff]
  constructor
  · rintro ⟨⟨passed, stack⟩, hfeed, h⟩
    obtain ⟨ops, hdrain, rfl⟩ := Except.map_eq_ok_iff.mp h
    exact ⟨passed, ops, drain_eq_ok_iff.mp hdrain ▸ hfeed, rfl⟩
  · rintro ⟨passed, ops, hfeed, rfl⟩
    exact ⟨_, hfeed, Except.map_eq_ok_iff.mpr ⟨ops, drain_eq_ok_iff.mpr rfl, rfl⟩⟩

/-- **A conversion that succeeds only reorders the words of the tokens.** -/
theorem perm_of_ofLexemes {lexemes : List Lexeme} {words : List String}
    (h : ofLexemes lexemes = .ok words) :
    words.Perm ((lexemes.map (·.token)).filterMap Token.word?) := by
  obtain ⟨passed, ops, hfeed, rfl⟩ := ofLexemes_eq_ok_iff.mp h
  have hperm := perm_of_feed hfeed
  have hwaiting : waiting (ops.map .operator) = ops := by
    simpa [waiting] using waiting_append ops []
  rwa [hwaiting] at hperm

/-- A conversion that succeeds has read every number. -/
theorem readable_of_ofLexemes {lexemes : List Lexeme} {words : List String}
    (h : ofLexemes lexemes = .ok words) : Readable (lexemes.map (·.token)) := by
  obtain ⟨passed, ops, hfeed, -⟩ := ofLexemes_eq_ok_iff.mp h
  refine feed_induction (P := fun _ tokens _ _ => Readable tokens) ?_ ?_ hfeed
  · intro stack text hmem
    cases hmem
  · intro stack token words next tokens words' last hmove ih text hmem
    rcases List.mem_cons.mp hmem with rfl | hmem
    · cases hmove with
      | number hread => exact ⟨_, hread⟩
    · exact ih text hmem

/-- A conversion that succeeds has found the parentheses balanced. -/
theorem openGroups?_of_ofLexemes {lexemes : List Lexeme} {words : List String}
    (h : ofLexemes lexemes = .ok words) :
    openGroups? 0 (lexemes.map (·.token)) = some 0 := by
  obtain ⟨passed, ops, hfeed, -⟩ := ofLexemes_eq_ok_iff.mp h
  have hdepth : depth (ops.map .operator) = 0 := by simpa [depth] using depth_append ops []
  simpa [depth, hdepth] using openGroups?_of_feed hfeed

end Postfix

end InfixCalc
