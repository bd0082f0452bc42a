import InfixCalc.Proofs.Locations
/-!
# Where lexemes stand

The places of the lexemes are carried along and come back in errors, but nothing is decided by them. If
every span is replaced by another one, the same conversion takes place, and an error has the other span.
So what a source text is converted and parsed into depends on its tokens alone.

Main statements: `Postfix.ofLexemes_relocate`, `Postfix.ofSource_congr` and `Expr.parse_congr`.
-/

namespace InfixCalc

/-! ## Other spans -/

section
variable (f : Span → Span)

def ParseError.relocate : ParseError → ParseError
  | strangeCharacter char span => .strangeCharacter char (f span)
  | invalidToken text span => .invalidToken text (f span)
  | unmatchedParenthesis span => .unmatchedParenthesis (f span)
  | e => e

def Lexeme.relocate (lexeme : Lexeme) : Lexeme := ⟨lexeme.token, f lexeme.span⟩

def Postfix.Pending.relocate : Pending → Pending
  | opening span => .opening (f span)
  | operator op => .operator op

end

/-- The error without its place. -/
def ParseError.unplaced : ParseError → ParseError := relocate fun _ => ⟨0, 0⟩

namespace Postfix

variable (f : Span → Span)

theorem Pending.relocate_operator (op : Operator) : (operator op).relocate f = .operator op := rfl

/-! ## The conversion -/

theorem release_relocate (p : Operator → Bool) (stack : List Pending) :
    release p (stack.map (Pending.relocate f)) =
      ((release p stack).1, (release p stack).2.map (Pending.relocate f)) := by
  induction stack with
  | nil => rfl
  | cons entry below ih =>
    cases entry with
    | opening span => rfl
    | operator op =>
      simp only [List.map_cons, Pending.relocate_operator, release, ih]
      split <;> rfl

theorem closeGroup?_relocate (stack : List Pending) :
    closeGroup? (stack.map (Pending.relocate f)) =
      (closeGroup? stack).map fun (ops, rest) => (ops, rest.map (Pending.relocate f)) := by
  induction stack with
  | nil => rfl
  | cons entry below ih =>
    cases entry with
    | opening span => rfl
    | operator op =>
      simp only [List.map_cons, Pending.relocate_operator, closeGroup?, ih]
      cases closeGroup? below <;> rfl

theorem drain_relocate (stack : List Pending) :
    drain (stack.map (Pending.relocate f)) = (drain stack).mapError (ParseError.relocate f) := by
  induction stack with
  | nil => rfl
  | cons entry below ih =>
    cases entry with
    | opening span => rfl
    | operator op =>
      simp only [List.map_cons, Pending.relocate_operator, drain, ih]
      cases drain below <;> rfl

/-- What a lexeme does to the stack, at other places. -/
theorem step_relocate (stack : List Pending) (lexeme : Lexeme) :
    step (stack.map (Pending.relocate f)) (lexeme.relocate f) =
      ((step stack lexeme).map fun (words, next) => (words, next.map (Pending.relocate f))).mapError
        (ParseError.relocate f) := by
  obtain ⟨token, span⟩ := lexeme
  cases token with
  | number text =>
    simp only [step, Lexeme.relocate]
    cases Number.ofText? text <;> rfl
  | operator op =>
    simp only [step, Lexeme.relocate, release_relocate]
    rfl
  | opening | unknown _ => rfl
  | closing =>
    simp only [step, Lexeme.relocate, closeGroup?_relocate]
    cases closeGroup? stack <;> rfl

theorem feed_relocate (stack : List Pending) (lexemes : List Lexeme) :
    feed (stack.map (Pending.relocate f)) (lexemes.map (Lexeme.relocate f)) =
      ((feed stack lexemes).map fun (words, last) => (words, last.map (Pending.relocate f))).mapError
        (ParseError.relocate f) := by
  induction lexemes generalizing stack with
  | nil => rfl
  | cons lexeme lexemes ih =>
    simp only [List.map_cons, feed, step_relocate]
    rcases step stack lexeme with e | ⟨words, next⟩
    · rfl
    · simp only [Except.map, Except.mapError, ih]
      rcases feed next lexemes with e | ⟨rest, last⟩ <;> rfl

/-- **The conversion of lexemes at other places is the same conversion.** -/
theorem ofLexemes_relocate (lexemes : List Lexeme) :
    ofLexemes (lexemes.map (Lexeme.relocate f)) = (ofLexemes lexemes).mapError (ParseError.relocate f) := by
  have hfeed := feed_relocate f [] lexemes
  rw [List.map_nil] at hfeed
  rw [ofLexemes, ofLexemes, hfeed]
  rcases feed [] lexemes with e | ⟨words, stack⟩
  · rfl
  · simp only [Except.map, Except.mapError, drain_relocate]
    cases drain stack <;> rfl

/-! ## Source texts -/

theorem findSome?_error?_relocate (lexemes : List Lexeme) :
    (lexemes.map (Lexeme.relocate f)).findSome? Lexeme.error? =
      (lexemes.findSome? Lexeme.error?).map (ParseError.relocate f) := by
  induction lexemes with
  | nil => rfl
  | cons lexeme lexemes ih =>
    obtain ⟨token, span⟩ := lexeme
    rw [List.map_cons, List.findSome?_cons, List.findSome?_cons, ih]
    cases token <;> rfl

/-- Either the first unknown character is the error, or the lexemes are converted. -/
theorem ofSource_eq_match (source : String) : ofSource source =
    match (Lexeme.scan source).findSome? Lexeme.error? with
    | some e => .error e
    | none => ofLexemes (Lexeme.scan source) := by
  rw [ofSource, Lexeme.tokenize]
  cases (Lexeme.scan source).findSome? Lexeme.error? <;> rfl

theorem ofSource_relocate (source : String) : (ofSource source).mapError (ParseError.relocate f) =
    match ((Lexeme.scan source).map (Lexeme.relocate f)).findSome? Lexeme.error? with
    | some e => .error e
    | none => ofLexemes ((Lexeme.scan source).map (Lexeme.relocate f)) := by
  rw [ofSource_eq_match, findSome?_error?_relocate, ofLexemes_relocate]
  cases (Lexeme.scan source).findSome? Lexeme.error? <;> rfl

/-- The errors of building a tree have no place. -/
theorem toTree_relocate (words : List String) :
    (toTree words).mapError (ParseError.relocate f) = toTree words := by
  cases h : toTree words with
  | ok t => rfl
  | error e => cases toTree_error h <;> rfl

/-- Lexemes with the same tokens differ by their places only. -/
theorem map_relocate_of_tokens {lexemes lexemes' : List Lexeme}
    (h : lexemes.map (·.token) = lexemes'.map (·.token)) (span : Span) :
    lexemes.map (Lexeme.relocate fun _ => span) = lexemes'.map (Lexeme.relocate fun _ => span) := by
  have hmap := congrArg (List.map fun token => Lexeme.mk token span) h
  rwa [List.map_map, List.map_map] at hmap

variable {source source' : String}

/-- **Source texts with the same tokens are converted alike,** up to the places of errors. -/
theorem ofSource_congr (h : Token.ofSource source = Token.ofSource source') :
    (ofSource source).mapError ParseError.unplaced =
      (ofSource source').mapError ParseError.unplaced := by
  simp only [ParseError.unplaced, ofSource_relocate, map_relocate_of_tokens h]

end Postfix

/-- **Source texts with the same tokens are parsed alike,** up to the places of errors. -/
theorem Expr.parse_congr {source source' : String}
    (h : Token.ofSource source = Token.ofSource source') :
    (parse source).mapError ParseError.unplaced = (parse source').mapError ParseError.unplaced := by
  have hparse (source : String) : (parse source).mapError ParseError.unplaced =
      ((Postfix.ofSource source).mapError ParseError.unplaced).bind Postfix.toTree := by
    rw [parse]
    cases Postfix.ofSource source with
    | error e => rfl
    | ok words => exact Postfix.toTree_relocate _ words
  rw [hparse, hparse, Postfix.ofSource_congr h]

end InfixCalc
