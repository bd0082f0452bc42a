import InfixCalc.Proofs.Contents
import InfixCalc.Proofs.Faults
import InfixCalc.Proofs.Locations
/-!
# Open groups

What becomes of a conversion is decided by the parentheses alone, and by the lexemes that are no words:
the operators on the stack are moved about above and between the parentheses, but never past one. So
the conversion fails just where a conversion fails that keeps nothing but the open parentheses.

Main statements:

* `Postfix.feed_openings`: the conversion moves the open parentheses as if there were no operators;
* `Postfix.Pends.of_run`: the parentheses that are kept are those that have not been closed;
* `ofLexemes_outcome`: which error a conversion ends with, and when it succeeds.
-/

namespace InfixCalc

namespace Postfix

/-! ## The conversion without operators -/

/-- The parentheses on the stack, the innermost first. -/
def openings : List Pending → List Span
  | [] => []
  | .opening span :: stack => span :: openings stack
  | .operator _ :: stack => openings stack

/-- One lexeme, as far as the open parentheses are concerned. -/
def group (groups : List Span) (lexeme : Lexeme) : Except ParseError (List Span) :=
  match lexeme.token with
  | .number text => match Number.ofText? text with
    | some _ => .ok groups
    | none => .error (.invalidToken text lexeme.span)
  | .operator _ => .ok groups
  | .opening => .ok (lexeme.span :: groups)
  | .closing => match groups with
    | _ :: outer => .ok outer
    | [] => .error (.unmatchedParenthesis lexeme.span)
  | .unknown _ => .error (.invalidToken lexeme.token.text lexeme.span)

@[simp] theorem openings_append (ops : List Operator) (stack : List Pending) :
    openings (ops.map .operator ++ stack) = openings stack := by
  induction ops with
  | nil => rfl
  | cons op ops ih => exact ih

theorem openings_release (p : Operator → Bool) (stack : List Pending) :
    openings (release p stack).2 = openings stack := by
  have hstack := congrArg openings (release_spec p stack)
  rw [openings_append] at hstack
  exact hstack.symm

theorem openings_of_closeGroup?_none {stack : List Pending} (h : closeGroup? stack = none) :
    openings stack = [] := by
  induction stack with
  | nil => rfl
  | cons entry stack ih =>
    cases entry with
    | opening span => cases h
    | operator op => exact ih (Option.map_eq_none_iff.mp h)

theorem step_openings (stack : List Pending) (lexeme : Lexeme) :
    (step stack lexeme).map (fun moved => openings moved.2) = group (openings stack) lexeme := by
  obtain ⟨token, span⟩ := lexeme
  cases token with
  | number text =>
    simp only [step, group]
    cases Number.ofText? text <;> rfl
  | operator op => exact congrArg Except.ok (openings_release (·.appliesBefore op) stack)
  | opening | unknown _ => rfl
  | closing =>
    simp only [step, group]
    cases hclose : closeGroup? stack with
    | none =>
      rw [openings_of_closeGroup?_none hclose]
      rfl
    | some closed =>
      obtain ⟨span', rfl⟩ := closeGroup?_eq_some_iff.mp hclose
      rw [openings_append]
      rfl

/-- **Operators never move past a parenthesis.** -/
theorem feed_openings (stack : List Pending) (lexemes : List Lexeme) :
    (feed stack lexemes).map (fun fed => openings fed.2) =
      lexemes.foldlM group (openings stack) := by
  induction lexemes generalizing stack with
  | nil => rfl
  | cons lexeme lexemes ih =>
    rw [feed_cons, List.foldlM_cons, ← step_openings]
    rcases step stack lexeme with e | ⟨words, next⟩
    · rfl
    show _ = lexemes.foldlM group (openings next)
    rw [← ih]
    simp only [Except.bind]
    rcases feed next lexemes with e | ⟨words', last⟩ <;> rfl

theorem drain_eq_error_iff {stack : List Pending} {e : ParseError} :
    drain stack = .error e ↔
      ∃ span outer, openings stack = span :: outer ∧ e = .unmatchedParenthesis span := by
  induction stack with
  | nil => simp [drain, openings]
  | cons entry stack ih =>
    cases entry with
    | opening span => simp [drain, openings, eq_comm]
    | operator op => rw [drain, Except.map_eq_error_iff, ih, openings]

theorem ofLexemes_eq_error_iff {lexemes : List Lexeme} {e : ParseError} :
    ofLexemes lexemes = .error e ↔ lexemes.foldlM group [] = .error e ∨
      ∃ span outer, lexemes.foldlM group [] = .ok (span :: outer) ∧
        e = .unmatchedParenthesis span := by
  have hgroups : lexemes.foldlM group [] = _ := (feed_openings [] lexemes).symm
  rw [hgroups, ofLexemes]
  rcases feed [] lexemes with e' | ⟨words, stack⟩
  · simp [Except.map]
  · rw [Except.map_eq_error_iff, drain_eq_error_iff]
    simp [Except.map]

theorem exists_ofLexemes_eq_ok_iff {lexemes : List Lexeme} :
    (∃ words, ofLexemes lexemes = .ok words) ↔ lexemes.foldlM group [] = .ok [] := by
  have herror (e : ParseError) : ofLexemes lexemes = .error e ↔ _ := ofLexemes_eq_error_iff
  rcases hresult : ofLexemes lexemes with e | words
  · rcases (herror e).mp hresult with hrun | ⟨span, outer, hrun, -⟩ <;> simp [hrun]
  · refine iff_of_true ⟨words, rfl⟩ ?_
    rcases hrun : lexemes.foldlM group [] with e | groups
    · rw [(herror e).mpr (.inl hrun)] at hresult
      cases hresult
    · cases groups with
      | nil => rfl
      | cons span outer =>
        rw [(herror _).mpr (.inr ⟨span, outer, hrun, rfl⟩)] at hresult
        cases hresult

/-! ## Faults of a lexeme list -/

/-- How many groups the lexemes open. -/
def opened (lexemes : List Lexeme) : Nat := lexemes.countP fun lexeme => lexeme.token == .opening

/-- How many groups the lexemes close. -/
def closed (lexemes : List Lexeme) : Nat := lexemes.countP fun lexeme => lexeme.token == .closing

/-- What is wrong with a lexeme behind others: a number that cannot be read, an unknown character, and
a parenthesis that closes more groups than have been opened. -/
inductive Offends (before : List Lexeme) : Lexeme → ParseError → Prop
  | number {text span} : Number.ofText? text = none →
    Offends before ⟨.number text, span⟩ (.invalidToken text span)
  | unknown {c span} : Offends before ⟨.unknown c, span⟩ (.invalidToken "<error>" span)
  | closing {span} : opened before = closed before →
    Offends before ⟨.closing, span⟩ (.unmatchedParenthesis span)

/-- A parenthesis in front of these lexemes stays open: up to no place among them more groups are closed
than opened. -/
def StaysOpen (after : List Lexeme) : Prop :=
  ∀ inner rest, after = inner ++ rest → closed inner ≤ opened inner

/-- No parenthesis among the lexemes stays open. -/
def AllClosed (lexemes : List Lexeme) : Prop :=
  ∀ before span after, lexemes = before ++ ⟨.opening, span⟩ :: after → ¬ StaysOpen after

/-- The last parenthesis that stays open has this span. -/
def LastOpen (lexemes : List Lexeme) (span : Span) : Prop :=
  ∃ before after, lexemes = before ++ ⟨.opening, span⟩ :: after ∧ StaysOpen after ∧ AllClosed after

section
variable {lexemes before after : List Lexeme} {lexeme : Lexeme} {groups next : List Span}
  {span : Span}

@[simp] theorem opened_append : opened (before ++ after) = opened before + opened after :=
  List.countP_append

@[simp] theorem closed_append : closed (before ++ after) = closed before + closed after :=
  List.countP_append

theorem opened_cons : opened (lexeme :: lexemes) =
    opened lexemes + if lexeme.token = .opening then 1 else 0 := by
  simp [opened, List.countP_cons]

theorem closed_cons : closed (lexeme :: lexemes) =
    closed lexemes + if lexeme.token = .closing then 1 else 0 := by
  simp [closed, List.countP_cons]

theorem LastOpen.unique {span' : Span} (h : LastOpen lexemes span) (h' : LastOpen lexemes span') :
    span = span' := by
  obtain ⟨before, after, rfl, hopen, hclosed⟩ := h
  obtain ⟨before', after', hsplit, hopen', hclosed'⟩ := h'
  -- Of two different places the earlier one has the later one behind it, where nothing stays open.
  rcases List.append_eq_append_iff.mp hsplit with ⟨between, -, hrest⟩ | ⟨between, -, hrest⟩
  · cases between with
    | nil =>
      cases hrest
      rfl
    | cons first between =>
      rw [List.cons_append, List.cons.injEq] at hrest
      exact absurd hopen' (hclosed between span' after' hrest.2)
  · cases between with
    | nil =>
      cases hrest
      rfl
    | cons first between =>
      rw [List.cons_append, List.cons.injEq] at hrest
      exact absurd hopen (hclosed' between span after hrest.2)

/-! ## Balanced lexemes -/

/-- Nothing is closed that was not opened before, and all that is opened is closed. -/
structure Balanced (lexemes : List Lexeme) : Prop where
  staysOpen : StaysOpen lexemes
  closed_eq : closed lexemes = opened lexemes

namespace Balanced

theorem nil : Balanced [] where
  staysOpen inner rest h := by
    obtain ⟨rfl, -⟩ := List.append_eq_nil_iff.mp h.symm
    exact Nat.le_refl _
  closed_eq := rfl

theorem append (h : Balanced before) (h' : Balanced after) : Balanced (before ++ after) where
  staysOpen inner rest hsplit := by
    rcases List.append_eq_append_iff.mp hsplit with ⟨more, rfl, hafter⟩ | ⟨more, hbefore, -⟩
    · have hmore := h'.staysOpen more rest hafter
      rw [closed_append, opened_append, h.closed_eq]
      exact Nat.add_le_add_left hmore _
    · exact h.staysOpen inner more hbefore
  closed_eq := by rw [closed_append, opened_append, h.closed_eq, h'.closed_eq]

theorem singleton (hopening : lexeme.token ≠ .opening) (hclosing : lexeme.token ≠ .closing) :
    Balanced [lexeme] := by
  have hopened : opened [lexeme] = 0 := by simp [opened, hopening]
  have hclosed : closed [lexeme] = 0 := by simp [closed, hclosing]
  refine ⟨fun inner rest hsplit => ?_, hclosed.trans hopened.symm⟩
  have hle := congrArg closed hsplit
  rw [closed_append, hclosed] at hle
  omega

theorem group (h : Balanced lexemes) (span span' : Span) :
    Balanced (⟨.opening, span⟩ :: (lexemes ++ [⟨.closing, span'⟩])) where
  staysOpen inner rest hsplit := by
    cases inner with
    | nil => exact Nat.le_refl _
    | cons first inner =>
      rw [List.cons_append, List.cons.injEq] at hsplit
      obtain ⟨rfl, hsplit⟩ := hsplit
      rw [opened_cons, closed_cons]
      rcases List.append_eq_append_iff.mp hsplit with ⟨more, rfl, hlast⟩ | ⟨more, hbefore, -⟩
      · have hmore := congrArg closed hlast
        have hone : closed [⟨.closing, span'⟩] = 1 := rfl
        rw [closed_append, hone] at hmore
        rw [closed_append, opened_append, h.closed_eq]
        simp
        omega
      · have hinner := h.staysOpen inner more hbefore
        simp
        omega
  closed_eq := by
    rw [opened_cons, closed_cons, opened_append, closed_append, h.closed_eq]
    rfl

theorem allClosed (h : Balanced lexemes) : AllClosed lexemes := by
  rintro before span after rfl hopen
  have hbefore := h.staysOpen before _ rfl
  have hafter := hopen after [] (List.append_nil _).symm
  have htotal := h.closed_eq
  rw [closed_append, opened_append, closed_cons, opened_cons] at htotal
  simp at htotal
  omega

end Balanced

/-! ## The parentheses that are kept -/

/-- The parentheses with these spans, the last first, have balanced lexemes between them. -/
inductive Pends : List Lexeme → List Span → Prop
  | none {lexemes : List Lexeme} : Balanced lexemes → Pends lexemes []
  | group {before after : List Lexeme} {groups : List Span} {span : Span} : Pends before groups →
    Balanced after → Pends (before ++ ⟨.opening, span⟩ :: after) (span :: groups)

namespace Pends

theorem append (h : Pends before groups) (hafter : Balanced after) :
    Pends (before ++ after) groups := by
  cases h with
  | none hbefore => exact .none (hbefore.append hafter)
  | group houter hinner =>
    rw [List.append_assoc, List.cons_append]
    exact .group houter (hinner.append hafter)

theorem step (h : Pends lexemes groups) (hstep : Postfix.group groups lexeme = .ok next) :
    Pends (lexemes ++ [lexeme]) next := by
  obtain ⟨token, span⟩ := lexeme
  cases token with
  | number text =>
    simp only [Postfix.group] at hstep
    split at hstep <;> cases hstep
    exact h.append (.singleton nofun nofun)
  | operator op =>
    cases hstep
    exact h.append (.singleton nofun nofun)
  | opening =>
    cases hstep
    exact .group h .nil
  | closing =>
    cases h with
    | none _ => cases hstep
    | group houter hinner =>
      cases hstep
      rw [List.append_assoc, List.cons_append]
      exact houter.append (hinner.group _ span)
  | unknown c => cases hstep

/-- **The parentheses that are kept are those that have not been closed.** -/
theorem of_run (h : lexemes.foldlM Postfix.group [] = .ok groups) : Pends lexemes groups :=
  foldlM_induction (.none .nil) step h

theorem opened_eq (h : Pends lexemes groups) : opened lexemes = closed lexemes + groups.length := by
  induction h with
  | none hbalanced => exact hbalanced.closed_eq.symm
  | group _ hinner ih =>
    rw [opened_append, closed_append, opened_cons, closed_cons, ih, hinner.closed_eq]
    simp
    omega

theorem lastOpen (h : Pends lexemes (span :: groups)) : LastOpen lexemes span := by
  cases h with
  | group _ hinner => exact ⟨_, _, rfl, hinner.staysOpen, hinner.allClosed⟩

end Pends

theorem detects_group : Detects group [] Offends := by
  intro lexemes groups hrun lexeme e
  have hcount := (Pends.of_run hrun).opened_eq
  obtain ⟨token, span⟩ := lexeme
  cases token with
  | number text =>
    constructor
    · intro h
      simp only [group] at h
      split at h <;> cases h
      exact .number ‹_›
    · rintro ⟨hread⟩
      simp [group, hread]
  | operator op => exact ⟨nofun, nofun⟩
  | opening => exact ⟨nofun, nofun⟩
  | closing =>
    constructor
    · intro h
      cases groups with
      | nil =>
        cases h
        exact .closing hcount
      | cons span' outer => cases h
    · rintro ⟨⟩
      rename_i hclosed
      obtain rfl : groups = [] := List.length_eq_zero_iff.mp (by omega)
      rfl
  | unknown c =>
    constructor
    · intro h
      cases h
      exact .unknown
    · rintro ⟨⟩
      rfl

/-! ## Operators do not matter -/

theorem foldlM_group_filter (lexemes : List Lexeme) (groups : List Span) :
    (lexemes.filter fun lexeme => !lexeme.token.isOperator).foldlM group groups =
      lexemes.foldlM group groups := by
  induction lexemes generalizing groups with
  | nil => rfl
  | cons lexeme lexemes ih =>
    cases hop : lexeme.token.isOperator with
    | true =>
      have hstep : group groups lexeme = .ok groups := by
        obtain ⟨token, span⟩ := lexeme
        cases token with
        | operator op => rfl
        | _ => cases hop
      rw [List.filter_cons_of_neg (by simp [hop]), ih, List.foldlM_cons, hstep]
      rfl
    | false =>
      rw [List.filter_cons_of_pos (by simp [hop]), List.foldlM_cons, List.foldlM_cons]
      exact congrArg _ (funext ih)

/-! ## The outcome of a conversion -/

theorem unknown_not_mem_of_faultFree (h : FaultFree Offends lexemes) (c : Char) :
    .unknown c ∉ lexemes.map (·.token) := by
  intro hmem
  obtain ⟨⟨_, span⟩, hlexeme, rfl⟩ := List.mem_map.mp hmem
  obtain ⟨before, after, hsplit⟩ := List.append_of_mem hlexeme
  exact h before _ after hsplit _ .unknown

/-- A parenthesis that stays open is what the conversion fails at, if it gets through the lexemes. -/
theorem run_ok_cons_iff : (∃ outer, lexemes.foldlM group [] = .ok (span :: outer)) ↔
    FaultFree Offends lexemes ∧ LastOpen lexemes span := by
  rw [← detects_group.exists_eq_ok_iff]
  constructor
  · rintro ⟨outer, hrun⟩
    exact ⟨⟨_, hrun⟩, (Pends.of_run hrun).lastOpen⟩
  · rintro ⟨⟨groups, hrun⟩, hlast⟩
    cases groups with
    | nil =>
      obtain ⟨before, after, hsplit, hopen, -⟩ := hlast
      cases Pends.of_run hrun with
      | none hbalanced => exact absurd hopen (hbalanced.allClosed before span after hsplit)
    | cons span' outer =>
      obtain rfl := hlast.unique (Pends.of_run hrun).lastOpen
      exact ⟨outer, hrun⟩

theorem run_ok_nil_iff :
    lexemes.foldlM group [] = .ok [] ↔ FaultFree Offends lexemes ∧ AllClosed lexemes := by
  rw [← detects_group.exists_eq_ok_iff]
  constructor
  · intro hrun
    cases Pends.of_run hrun with
    | none hbalanced => exact ⟨⟨_, hrun⟩, hbalanced.allClosed⟩
  · rintro ⟨⟨groups, hrun⟩, hclosed⟩
    cases groups with
    | nil => exact hrun
    | cons span outer =>
      obtain ⟨before, after, hsplit, hopen, -⟩ := (Pends.of_run hrun).lastOpen
      exact absurd hopen (hclosed before span after hsplit)

theorem ofLexemes_eq_error_iff_fault {e : ParseError} : ofLexemes lexemes = .error e ↔
    FirstFault Offends lexemes e ∨
      FaultFree Offends lexemes ∧ ∃ span, LastOpen lexemes span ∧ e = .unmatchedParenthesis span := by
  rw [ofLexemes_eq_error_iff, detects_group.eq_error_iff]
  apply or_congr_right
  constructor
  · rintro ⟨span, outer, hrun, rfl⟩
    obtain ⟨hfree, hlast⟩ := run_ok_cons_iff.mp ⟨outer, hrun⟩
    exact ⟨hfree, span, hlast, rfl⟩
  · rintro ⟨hfree, span, hlast, rfl⟩
    obtain ⟨outer, hrun⟩ := run_ok_cons_iff.mpr ⟨hfree, hlast⟩
    exact ⟨span, outer, hrun, rfl⟩

/-- A conversion that succeeds gives one word for each lexeme that is no parenthesis. -/
theorem length_of_ofLexemes {words : List String} (h : ofLexemes lexemes = .ok words) :
    words.length = lexemes.countP fun lexeme => !lexeme.token.isParenthesis := by
  have hfree := (run_ok_nil_iff.mp (exists_ofLexemes_eq_ok_iff.mp ⟨words, h⟩)).1
  have hcount := Token.countP_not_isParenthesis (unknown_not_mem_of_faultFree hfree)
  rw [(perm_of_ofLexemes h).length_eq, (readable_of_ofLexemes h).count_words.2, ← hcount,
    List.countP_map]
  rfl

theorem parentheses_not_mem_of_ofLexemes {words : List String} (h : ofLexemes lexemes = .ok words) :
    "(" ∉ words ∧ ")" ∉ words :=
  ⟨fun hmem => not_isUnknown_of_ofLexemes h hmem ⟨by decide, by decide⟩,
    fun hmem => not_isUnknown_of_ofLexemes h hmem ⟨by decide, by decide⟩⟩

end

end Postfix

open Postfix

/-- **How a conversion ends.** It fails with the first fault of its lexemes, whatever follows; without a
fault it fails at the last parenthesis that stays open; and without such a parenthesis it succeeds, with
one word for each lexeme that is no parenthesis. Other operators, or operators in other places, do not
change the error, nor make or mend one. -/
theorem ofLexemes_outcome (lexemes : List Lexeme) :
    (∀ e, ofLexemes lexemes = .error e ↔
      FirstFault Offends lexemes e ∨ FaultFree Offends lexemes ∧
        ∃ span, LastOpen lexemes span ∧ e = .unmatchedParenthesis span) ∧
    (∀ e, FirstFault Offends lexemes e → ∀ more, ofLexemes (lexemes ++ more) = .error e) ∧
    ((∃ words, ofLexemes lexemes = .ok words) ↔
      FaultFree Offends lexemes ∧ AllClosed lexemes) ∧
    (∀ words, ofLexemes lexemes = .ok words →
      words.length = lexemes.countP (fun lexeme => !lexeme.token.isParenthesis) ∧
      "(" ∉ words ∧ ")" ∉ words) ∧
    ∀ others : List Lexeme,
      others.filter (fun lexeme => !lexeme.token.isOperator) =
        lexemes.filter (fun lexeme => !lexeme.token.isOperator) →
      ∀ e, ofLexemes others = .error e ↔ ofLexemes lexemes = .error e := by
  refine ⟨fun e => ofLexemes_eq_error_iff_fault, fun e hfirst more => ?_, ?_, fun words h => ?_,
    fun others hothers e => ?_⟩
  · exact ofLexemes_eq_error_iff_fault.mpr (.inl (hfirst.append more))
  · rw [exists_ofLexemes_eq_ok_iff, run_ok_nil_iff]
  · exact ⟨length_of_ofLexemes h, parentheses_not_mem_of_ofLexemes h⟩
  · rw [ofLexemes_eq_error_iff, ofLexemes_eq_error_iff, ← foldlM_group_filter others, hothers,
      foldlM_group_filter lexemes]

/-- The parenthesis behind the plus sign closes nothing, so that the spelling of the number behind it does
not count; two operands without an operator are no fault. -/
theorem ofLexemes_outcome_stray :
    let stray : List Lexeme := [⟨.operator .add, ⟨0, 1⟩⟩, ⟨.closing, ⟨1, 2⟩⟩]
    let pair : List Lexeme := [⟨.opening, ⟨0, 1⟩⟩, ⟨.number "1", ⟨1, 2⟩⟩, ⟨.closing, ⟨2, 3⟩⟩,
      ⟨.number "2", ⟨3, 4⟩⟩]
    (FirstFault Offends stray (.unmatchedParenthesis ⟨1, 2⟩) ∧
      ofLexemes (stray ++ [⟨.number "1.2.3", ⟨2, 7⟩⟩]) = .error (.unmatchedParenthesis ⟨1, 2⟩)) ∧
    (ofLexemes pair = .ok ["1", "2"] ∧ "(" ∉ ["1", "2"]) ∧
    ∀ e, ofLexemes (pair ++ [⟨.operator .power, ⟨4, 5⟩⟩]) = .error e ↔ ofLexemes pair = .error e := by
  intro stray pair
  have hstray : FirstFault Offends stray (.unmatchedParenthesis ⟨1, 2⟩) :=
    detects_group.eq_error_iff.mp rfl
  have hpair : ofLexemes pair = .ok ["1", "2"] := by decide +kernel
  exact ⟨⟨hstray, (ofLexemes_outcome stray).2.1 _ hstray _⟩,
    ⟨hpair, ((ofLexemes_outcome pair).2.2.2.1 _ hpair).2.1⟩,
    (ofLexemes_outcome pair).2.2.2.2 _ rfl⟩

end InfixCalc
