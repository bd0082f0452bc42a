import InfixCalc.Diagnostic
import InfixCalc.Proofs.Parsing
import InfixCalc.Proofs.Partition
import InfixCalc.Proofs.Runs
/-!
# Where errors lie

An error that parsing reports with a span is about one of the lexemes of the source, and the span is
that of this lexeme. The span of an open parenthesis is kept on the stack until the end; the errors of
the building of a tree have none.

Main statements: `Expr.blames_of_parse_error` and `locates_of_parse_error`.
-/

namespace InfixCalc

namespace ParseError

/-- The error is about the lexeme. -/
inductive Blames : ParseError → Lexeme → Prop
  | strange {c span} : Blames (.strangeCharacter c span) ⟨.unknown c, span⟩
  | number {text span} : Blames (.invalidToken text span) ⟨.number text, span⟩
  | opening {span} : Blames (.unmatchedParenthesis span) ⟨.opening, span⟩
  | closing {span} : Blames (.unmatchedParenthesis span) ⟨.closing, span⟩

/-- The text that an error complains about. -/
def IsAbout : ParseError → String → Prop
  | strangeCharacter c _, text => text = c.toString
  | invalidToken token _, text => text = token
  | unmatchedParenthesis _, text => text = "(" ∨ text = ")"
  | missingOperand, _ | unknownWord _, _ | incomplete, _ | tooDeep _, _ => False

theorem Blames.span?_eq {e : ParseError} {lexeme : Lexeme} (h : e.Blames lexeme) :
    e.span? = some lexeme.span := by
  cases h <;> rfl

end ParseError

open ParseError

/-! ## The scan -/

namespace Lexeme

/-- A scan fails at an unknown character. -/
theorem exists_of_tokenize_error {source : String} {e : ParseError} (h : tokenize source = .error e) :
    ∃ c span, ⟨.unknown c, span⟩ ∈ scan source ∧ e = .strangeCharacter c span := by
  unfold tokenize at h
  dsimp only at h
  split at h
  · rename_i error hfind
    cases h
    obtain ⟨⟨token, span⟩, hmem, herror⟩ := List.exists_of_findSome?_eq_some hfind
    cases token with
    | unknown c =>
      cases herror
      exact ⟨c, span, hmem, rfl⟩
    | _ => cases herror
  · cases h

theorem tokenize_error {source : String} {e : ParseError} (h : tokenize source = .error e) :
    ∃ lexeme ∈ scan source, e.Blames lexeme := by
  obtain ⟨c, span, hmem, rfl⟩ := exists_of_tokenize_error h
  exact ⟨⟨.unknown c, span⟩, hmem, .strange⟩

/-- An error about a lexeme complains about the text that makes the lexeme. -/
theorem isAbout_of_fits {before text behind : List Char} {lexeme : Lexeme} {e : ParseError}
    (hfits : Fits before text behind lexeme) (h : e.Blames lexeme) : e.IsAbout (String.ofList text) := by
  cases h with
  | strange =>
    obtain ⟨rfl, -⟩ := hfits.unknown
    exact String.singleton_eq_ofList.symm
  | number => exact (hfits.text_eq (by simp)).symm
  | opening => exact .inl (hfits.text_eq (by simp)).symm
  | closing => exact .inr (hfits.text_eq (by simp)).symm

/-- The text that an error about a lexeme complains about stands at the span of the lexeme. -/
theorem locates_of_blames {source : String} {lexeme : Lexeme} {e : ParseError}
    (hmem : lexeme ∈ scan source) (h : e.Blames lexeme) :
    ∃ text, e.IsAbout text ∧ lexeme.span.Locates source text := by
  obtain ⟨before, text, behind, hsource, hfits⟩ := exists_fits_of_mem_scan hmem
  exact ⟨_, isAbout_of_fits hfits h, hfits.locates hsource⟩

end Lexeme

/-! ## The conversion -/

namespace Postfix

theorem step_error {stack : List Pending} {lexeme : Lexeme} {e : ParseError}
    (h : step stack lexeme = .error e) (hknown : ∀ c, lexeme.token ≠ .unknown c) :
    e.Blames lexeme := by
  obtain ⟨token, span⟩ := lexeme
  unfold step at h
  cases token with
  | number text =>
    dsimp only at h
    split at h <;> cases h
    exact .number
  | closing =>
    dsimp only at h
    split at h <;> cases h
    exact .closing
  | unknown c => exact absurd rfl (hknown c)
  | operator _ | opening => cases h

theorem feed_error {stack : List Pending} {lexemes : List Lexeme} {e : ParseError}
    (h : feed stack lexemes = .error e) (hknown : ∀ lexeme ∈ lexemes, ∀ c, lexeme.token ≠ .unknown c) :
    ∃ lexeme ∈ lexemes, e.Blames lexeme := by
  induction lexemes generalizing stack with
  | nil => cases h
  | cons lexeme lexemes ih =>
    obtain ⟨hfirst, hrest⟩ := List.forall_mem_cons.mp hknown
    rw [feed_cons, Except.bind_eq_error_iff] at h
    rcases h with h | ⟨⟨words, next⟩, -, h⟩
    · exact ⟨lexeme, List.mem_cons_self, step_error h hfirst⟩
    · obtain ⟨lexeme', hmem, hblames⟩ := ih (Except.map_eq_error_iff.mp h) hrest
      exact ⟨lexeme', List.mem_cons_of_mem _ hmem, hblames⟩

/-- A step puts at most its own parenthesis on the stack. -/
theorem opening_mem_of_step {stack next : List Pending} {lexeme : Lexeme} {words : List String}
    {span : Span} (h : step stack lexeme = .ok (words, next)) (hmem : .opening span ∈ next) :
    .opening span ∈ stack ∨ lexeme = ⟨.opening, span⟩ := by
  obtain ⟨token, span'⟩ := lexeme
  unfold step at h
  cases token with
  | number text =>
    dsimp only at h
    split at h <;> cases h
    exact .inl hmem
  | operator op =>
    cases h
    have hbelow : .opening span ∈ (release (·.appliesBefore op) stack).2 := by simpa using hmem
    rw [release_spec (·.appliesBefore op) stack]
    exact .inl (List.mem_append_right _ hbelow)
  | opening =>
    cases h
    rcases List.mem_cons.mp hmem with heq | hmem
    · cases heq
      exact .inr rfl
    · exact .inl hmem
  | closing =>
    dsimp only at h
    split at h
    · rename_i ops rest hclose
      cases h
      obtain ⟨_, rfl⟩ := closeGroup?_eq_some_iff.mp hclose
      exact .inl (List.mem_append_right _ (List.mem_cons_of_mem _ hmem))
    · cases h
  | unknown c => cases h

/-- The parentheses on the stack are among the lexemes that were read. -/
theorem opening_mem_of_feed {stack last : List Pending} {lexemes : List Lexeme}
    {words : List String} {span : Span} (h : feed stack lexemes = .ok (words, last))
    (hmem : .opening span ∈ last) : .opening span ∈ stack ∨ ⟨.opening, span⟩ ∈ lexemes := by
  induction lexemes generalizing stack words with
  | nil =>
    cases h
    exact .inl hmem
  | cons lexeme lexemes ih =>
    rw [feed_cons, Except.bind_eq_ok_iff] at h
    obtain ⟨⟨words₁, next⟩, hstep, h⟩ := h
    obtain ⟨⟨words₂, _⟩, hfeed, h⟩ := Except.map_eq_ok_iff.mp h
    cases h
    rcases ih hfeed with hnext | hlater
    · rcases opening_mem_of_step hstep hnext with hstack | rfl
      · exact .inl hstack
      · exact .inr List.mem_cons_self
    · exact .inr (List.mem_cons_of_mem _ hlater)

theorem drain_error {stack : List Pending} {e : ParseError} (h : drain stack = .error e) :
    ∃ span, .opening span ∈ stack ∧ e = .unmatchedParenthesis span := by
  induction stack with
  | nil => cases h
  | cons entry stack ih =>
    cases entry with
    | opening span =>
      cases h
      exact ⟨span, List.mem_cons_self, rfl⟩
    | operator op =>
      obtain ⟨span, hmem, he⟩ := ih (Except.map_eq_error_iff.mp h)
      exact ⟨span, List.mem_cons_of_mem _ hmem, he⟩

/-- **A conversion fails at one of its lexemes.** -/
theorem ofLexemes_error {lexemes : List Lexeme} {e : ParseError} (h : ofLexemes lexemes = .error e)
    (hknown : ∀ lexeme ∈ lexemes, ∀ c, lexeme.token ≠ .unknown c) :
    ∃ lexeme ∈ lexemes, e.Blames lexeme := by
  unfold ofLexemes at h
  split at h
  · rename_i hfeed
    cases h
    exact feed_error hfeed hknown
  · rename_i words stack hfeed
    obtain ⟨span, hmem, rfl⟩ := drain_error (Except.map_eq_error_iff.mp h)
    exact ⟨_, (opening_mem_of_feed hfeed hmem).resolve_left List.not_mem_nil, .opening⟩

/-! ## The building of a tree -/

/-- The word is neither a number nor an operator. -/
def IsUnknown (word : String) : Prop :=
  Number.ofText? word = none ∧ Operator.ofText? word = none

/-- What can go wrong when a tree is built from the words. -/
inductive BuildFails (words : List String) : ParseError → Prop
  | missingOperand : BuildFails words .missingOperand
  | incomplete : BuildFails words .incomplete
  | tooDeep : BuildFails words (.tooDeep maxHeight)
  | unknownWord {word} : word ∈ words → IsUnknown word → BuildFails words (.unknownWord word)

theorem BuildFails.mono {words words' : List String} {e : ParseError} (h : BuildFails words e)
    (hle : words ⊆ words') : BuildFails words' e := by
  cases h with
  | missingOperand => exact .missingOperand
  | incomplete => exact .incomplete
  | tooDeep => exact .tooDeep
  | unknownWord hmem hunknown => exact .unknownWord (hle hmem) hunknown

theorem push_error {stack : List Built} {word : String} {e : ParseError}
    (h : push stack word = .error e) : BuildFails [word] e := by
  unfold push at h
  split at h
  · cases h
  rename_i hnumber
  split at h
  · unfold combine at h
    split at h
    · dsimp only at h
      split at h <;> cases h
      exact .tooDeep
    · cases h
      exact .missingOperand
  · rename_i hoperator
    cases h
    exact .unknownWord List.mem_cons_self ⟨hnumber, hoperator⟩

theorem foldlM_error {words : List String} {stack : List Built} {e : ParseError}
    (h : words.foldlM push stack = .error e) : BuildFails words e := by
  induction words generalizing stack with
  | nil => cases h
  | cons word words ih =>
    rw [List.foldlM_cons] at h
    rcases Except.bind_eq_error_iff.mp h with h | ⟨next, -, h⟩
    · exact (push_error h).mono (by simp)
    · exact (ih h).mono (List.subset_cons_self ..)

theorem toTree_error {words : List String} {e : ParseError} (h : toTree words = .error e) :
    BuildFails words e := by
  unfold toTree at h
  split at h
  · cases h
  · cases h
    exact .incomplete
  · rename_i hfold
    cases h
    exact foldlM_error hfold

/-- The words of a source text are known. -/
theorem not_isUnknown_of_ofLexemes {lexemes : List Lexeme} {words : List String} {word : String}
    (h : ofLexemes lexemes = .ok words) (hmem : word ∈ words) : ¬ IsUnknown word := by
  rintro ⟨hnumber, hoperator⟩
  obtain ⟨token, -, hword⟩ := List.mem_filterMap.mp ((perm_of_ofLexemes h).mem_iff.mp hmem)
  cases token with
  | number text =>
    obtain ⟨v, -, rfl⟩ := Option.map_eq_some_iff.mp hword
    rw [Number.ofText?_text] at hnumber
    cases hnumber
  | operator op =>
    cases hword
    rw [Operator.ofText?_text] at hoperator
    cases hoperator
  | _ => cases hword

end Postfix

/-! ## All stages -/

namespace Expr

variable {source : String} {e : ParseError}

/-- **Parsing fails at one of the lexemes, or for a reason that has no place.** -/
theorem blames_of_parse_error (h : parse source = .error e) :
    (∃ lexeme ∈ Lexeme.scan source, e.Blames lexeme) ∨
      e = .missingOperand ∨ e = .incomplete ∨ e = .tooDeep Postfix.maxHeight := by
  rcases Except.bind_eq_error_iff.mp h with hsource | ⟨words, hwords, htree⟩
  · rcases Except.bind_eq_error_iff.mp hsource with htokens | ⟨lexemes, htokens, hconvert⟩
    · exact .inl (Lexeme.tokenize_error htokens)
    · obtain ⟨rfl, hknown⟩ := Lexeme.tokenize_eq_ok_iff.mp htokens
      refine .inl (Postfix.ofLexemes_error hconvert fun lexeme hmem c htoken => hknown c ?_)
      exact htoken ▸ List.mem_map_of_mem hmem
  · obtain ⟨-, hconvert⟩ := Postfix.ofSource_eq_ok_iff.mp hwords
    cases Postfix.toTree_error htree with
    | missingOperand => exact .inr (.inl rfl)
    | incomplete => exact .inr (.inr (.inl rfl))
    | tooDeep => exact .inr (.inr (.inr rfl))
    | unknownWord hmem hunknown =>
      exact absurd hunknown (Postfix.not_isUnknown_of_ofLexemes hconvert hmem)

theorem locates_of_span? (h : parse source = .error e) {span : Span} (hspan : e.span? = some span) :
    ∃ text, e.IsAbout text ∧ span.Locates source text := by
  rcases blames_of_parse_error h with ⟨lexeme, hmem, hblames⟩ | rfl | rfl | rfl
  · obtain rfl : lexeme.span = span := Option.some.inj (hblames.span?_eq.symm.trans hspan)
    exact Lexeme.locates_of_blames hmem hblames
  all_goals cases hspan

theorem ne_unknownWord_of_parse_error (h : parse source = .error e) (word : String) :
    e ≠ .unknownWord word := by
  rintro rfl
  rcases blames_of_parse_error h with ⟨lexeme, -, hblames⟩ | hplain | hplain | hplain
  · cases hblames
  all_goals cases hplain

/-- A strange character is refused before it could become an invalid token. -/
theorem ne_invalidToken_of_parse_error (h : parse source = .error e) (span : Span) :
    e ≠ .invalidToken "<error>" span := by
  rintro rfl
  rcases blames_of_parse_error h with ⟨lexeme, hmem, hblames⟩ | hplain | hplain | hplain
  · cases hblames
    have hnumeral := (Lexeme.maximal_of_number_mem_scan hmem).1 '<' (by decide)
    cases hnumeral
  all_goals cases hplain

end Expr

/-! ## Diagnostics -/

namespace Failure

theorem toDiagnostic_of_span? {e : ParseError} {span : Span} (h : e.span? = some span) (file : Nat) :
    (parse e).toDiagnostic file = ⟨e.message, some ⟨file, span, e.remark⟩, []⟩ := by
  simp [toDiagnostic, message, h]

theorem toDiagnostic_of_span?_eq_none {e : ParseError} (h : e.span? = none) (file : Nat) :
    (parse e).toDiagnostic file = ⟨e.message, none, [e.remark]⟩ := by
  simp [toDiagnostic, message, h]

end Failure

/-- **Every location that is reported is real.** The span of a parse error lies within the source and
between characters, and the text at it is the one that the error complains about. The diagnostic of the
error labels just this span and has no notes; an error without a span gets a note and no label. No word
is ever unknown, and no strange character is taken for a number. -/
theorem locates_of_parse_error {source : String} {e : ParseError}
    (h : Expr.parse source = .error e ∨ ∃ verbose, (run verbose source).value = .error e) :
    (∀ span, e.span? = some span → (∃ text, e.IsAbout text ∧ span.Locates source text) ∧
      ∀ file, (Failure.parse e).toDiagnostic file =
        ⟨e.message, some ⟨file, span, e.remark⟩, []⟩) ∧
    (e.span? = none →
      ∀ file, (Failure.parse e).toDiagnostic file = ⟨e.message, none, [e.remark]⟩) ∧
    (∀ word, e ≠ .unknownWord word) ∧ ∀ span, e ≠ .invalidToken "<error>" span := by
  have hparse : Expr.parse source = .error e := by
    rcases h with h | ⟨verbose, h⟩
    · exact h
    · rw [value_run] at h
      exact Except.map_eq_error_iff.mp h
  refine ⟨fun span hspan => ⟨Expr.locates_of_span? hparse hspan, ?_⟩, ?_,
    Expr.ne_unknownWord_of_parse_error hparse, Expr.ne_invalidToken_of_parse_error hparse⟩
  · exact Failure.toDiagnostic_of_span? hspan
  · exact Failure.toDiagnostic_of_span?_eq_none

/-- Of the two parentheses behind the product sign the first is never closed. -/
theorem locates_of_parse_error_unclosed :
    (run true "(1)\t* ((2 + 3)").value.map (·.expression) = .error (.unmatchedParenthesis ⟨6, 7⟩) ∧
      Span.Locates ⟨6, 7⟩ "(1)\t* ((2 + 3)" "(" := by
  have hparse : Expr.parse "(1)\t* ((2 + 3)" = .error (.unmatchedParenthesis ⟨6, 7⟩) := by
    decide +kernel
  have hrun : (run true "(1)\t* ((2 + 3)").value = .error (.unmatchedParenthesis ⟨6, 7⟩) := by
    rw [value_run, hparse]
    rfl
  obtain ⟨⟨text, habout, hlocates⟩, -⟩ := (locates_of_parse_error (.inr ⟨true, hrun⟩)).1 _ rfl
  refine ⟨by rw [hrun]; rfl, ?_⟩
  rcases habout with rfl | rfl
  · exact hlocates
  · exact absurd hlocates.extract_eq (by decide +kernel)

end InfixCalc
