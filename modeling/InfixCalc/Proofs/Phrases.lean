import InfixCalc.Expr.Rendering
import InfixCalc.Proofs.Conversion
/-!
# The conversion of phrases

The lexemes of a phrase pass on the words of its tree, but for some operators that are left on the
stack, on top of what was there before.

Main statement: `Derives.ofLexemes_eq`, the lexemes of an expression are converted into the postfix
words of its tree.
-/

namespace InfixCalc

namespace Postfix

/-- The entry on top of the stack stays there while a phrase of the level is converted. -/
def Guards (stack : List Pending) (l : Level) : Prop :=
  ∀ op, l.precedence ≤ op.precedence → Stops (·.appliesBefore op) stack

theorem guards_nil (l : Level) : Guards [] l := fun _ _ _ _ h => nomatch h

theorem guards_opening (span : Span) (stack : List Pending) (l : Level) :
    Guards (.opening span :: stack) l := fun _ _ _ _ h => nomatch h

theorem guards_operator {op : Operator} {l : Level}
    (h : ∀ op', l.precedence ≤ op'.precedence → op.appliesBefore op' = false)
    (stack : List Pending) : Guards (.operator op :: stack) l := by
  intro op' hop' top below htop
  cases htop
  exact h op' hop'

theorem Guards.mono {stack : List Pending} {l l' : Level} (h : Guards stack l)
    (hle : l.precedence ≤ l'.precedence) : Guards stack l' :=
  fun op hop => h op (Nat.le_trans hle hop)

/-- On a stack that it does not touch, the lexemes pass on the words of the tree up to the operators
`ops` that they leave. These bind at least as tightly as the level asks for. -/
def Spells (l : Level) (lexemes : List Lexeme) (t : Expr) : Prop :=
  ∀ stack, Guards stack l → ∃ (words : List String) (ops : List Operator),
    feed stack lexemes = .ok (words, ops.map .operator ++ stack) ∧
    words ++ ops.map Operator.text = t.postfixWords ∧
    ∀ op ∈ ops, l.precedence ≤ op.precedence

namespace Spells

variable {l l₁ l₂ : Level} {lexemes lexemes' : List Lexeme} {t u : Expr}

/-- A phrase of a tighter level. -/
theorem mono (h : Spells l₁ lexemes t) (hle : l.precedence ≤ l₁.precedence) :
    Spells l lexemes t := by
  intro stack hguards
  obtain ⟨words, ops, hfeed, hwords, hops⟩ := h stack (hguards.mono hle)
  exact ⟨words, ops, hfeed, hwords, fun op hop => Nat.le_trans hle (hops op hop)⟩

theorem number {text : String} {v : Number} (h : Number.ofText? text = some v) (span : Span) :
    Spells l [⟨.number text, span⟩] (.number v) := by
  intro stack _
  refine ⟨[v.text], [], ?_, rfl, by simp⟩
  simp [feed, step, h, Except.map]

theorem group (h : Spells .sum lexemes t) (span span' : Span) :
    Spells l (⟨.opening, span⟩ :: (lexemes ++ [⟨.closing, span'⟩])) t := by
  intro stack _
  obtain ⟨words, ops, hfeed, hwords, -⟩ := h _ (guards_opening span stack .sum)
  have hclose : closeGroup? (ops.map .operator ++ .opening span :: stack) = some (ops, stack) :=
    closeGroup?_eq_some_iff.mpr ⟨span, rfl⟩
  refine ⟨t.postfixWords, [], ?_, List.append_nil _, by simp⟩
  rw [feed_cons]
  show (feed (.opening span :: stack) (lexemes ++ _)).map _ = _
  rw [feed_append, hfeed]
  simp [feed, step, hclose, Except.bind, Except.map, hwords]

/-- An operator between two phrases. It releases all that the left one has left, and stays on the
stack during the right one. -/
theorem binary {op : Operator} (hleft : Spells l₁ lexemes t) (hright : Spells l₂ lexemes' u)
    (hop : l.precedence ≤ op.precedence) (hle₁ : l.precedence ≤ l₁.precedence)
    (hle₂ : l.precedence ≤ l₂.precedence)
    (hreleases : ∀ op' : Operator, l₁.precedence ≤ op'.precedence → op'.appliesBefore op = true)
    (hstays : ∀ op' : Operator, l₂.precedence ≤ op'.precedence → op.appliesBefore op' = false)
    (span : Span) :
    Spells l (lexemes ++ ⟨.operator op, span⟩ :: lexemes') (.binary op t u) := by
  intro stack hguards
  obtain ⟨words₁, ops₁, hfeed₁, hwords₁, hops₁⟩ := hleft stack (hguards.mono hle₁)
  obtain ⟨words₂, ops₂, hfeed₂, hwords₂, hops₂⟩ := hright _ (guards_operator hstays stack)
  have hrelease : release (·.appliesBefore op) (ops₁.map .operator ++ stack) = (ops₁, stack) :=
    release_append (fun op' hop' => hreleases op' (hops₁ op' hop')) (hguards op hop)
  -- The operator is left below what the right phrase leaves, so it comes out last.
  refine ⟨t.postfixWords ++ words₂, ops₂ ++ [op], ?_, ?_, ?_⟩
  · rw [feed_append, hfeed₁]
    simp [Except.bind, feed_cons, step, hrelease, hfeed₂, Except.map, ← hwords₁]
  · simp [Expr.postfixWords, ← hwords₂]
  · intro op' hop'
    rcases List.mem_append.mp hop' with hop' | hop'
    · exact Nat.le_trans hle₂ (hops₂ op' hop')
    · rwa [List.mem_singleton.mp hop']

end Spells

end Postfix

open Postfix

theorem exists_of_map_eq_append {lexemes : List Lexeme} {ts us : List Token} {token : Token}
    (h : lexemes.map (·.token) = ts ++ token :: us) :
    ∃ left span right, lexemes = left ++ ⟨token, span⟩ :: right ∧
      left.map (·.token) = ts ∧ right.map (·.token) = us := by
  obtain ⟨left, _, rfl, hleft, hrest⟩ := List.map_eq_append_iff.mp h
  obtain ⟨⟨_, span⟩, right, rfl, rfl, hright⟩ := List.map_eq_cons_iff.mp hrest
  exact ⟨left, span, right, rfl, hleft, hright⟩

/-- A phrase spells its tree, wherever its lexemes stand in a source text. -/
theorem Derives.spells {l : Level} {ts : List Token} {t : Expr} (h : Derives l ts t)
    {lexemes : List Lexeme} (hts : lexemes.map (·.token) = ts) : Spells l lexemes t := by
  induction h generalizing lexemes with
  | sum hop _ _ ih₁ ih₂ | product hop _ _ ih₁ ih₂ =>
    obtain ⟨left, span, right, rfl, hleft, hright⟩ := exists_of_map_eq_append hts
    refine (ih₁ hleft).binary (ih₂ hright) ?_ (Nat.le_refl _) (by decide) ?_ ?_ span
    · rcases hop with rfl | rfl <;> decide
    all_goals
      intro op'
      rcases hop with rfl | rfl <;> cases op' <;> decide
  | power _ _ ih₁ ih₂ =>
    obtain ⟨left, span, right, rfl, hleft, hright⟩ := exists_of_map_eq_append hts
    refine (ih₁ hleft).binary (ih₂ hright) (Nat.le_refl _) (by decide) (Nat.le_refl _) ?_ ?_ span
    all_goals
      intro op'
      cases op' <;> decide
  | ofProduct _ ih | ofPower _ ih | ofPrimary _ ih => exact (ih hts).mono (by decide)
  | number hread =>
    obtain ⟨⟨_, span⟩, rfl, rfl⟩ := List.map_eq_singleton_iff.mp hts
    exact .number hread span
  | group _ ih =>
    obtain ⟨⟨_, span⟩, _, rfl, rfl, hrest⟩ := List.map_eq_cons_iff.mp hts
    obtain ⟨inner, span', last, rfl, hinner, hlast⟩ := exists_of_map_eq_append hrest
    obtain rfl := List.map_eq_nil_iff.mp hlast
    exact .group (ih hinner) span span'

/-- **The lexemes of an expression are converted into the postfix words of its tree.** -/
theorem Derives.ofLexemes_eq {ts : List Token} {t : Expr} (h : Derives .sum ts t)
    {lexemes : List Lexeme} (hts : lexemes.map (·.token) = ts) :
    ofLexemes lexemes = .ok t.postfixWords := by
  obtain ⟨words, ops, hfeed, hwords, -⟩ := h.spells hts [] (guards_nil .sum)
  rw [List.append_nil] at hfeed
  exact ofLexemes_eq_ok_iff.mpr ⟨words, ops, hfeed, hwords.symm⟩

end InfixCalc
