import InfixCalc.Proofs.InfixText
import InfixCalc.Proofs.Partition
import InfixCalc.Proofs.Relocation
import Mathlib.Data.List.Chain
/-!
# Spelling tokens out

A list of tokens is spelled out with any blanks and tabs around the tokens, as long as two numbers do not
touch. Scanning undoes it: the tokens come back, each at the place where it was written.

Main statements: `Spaced.scanFrom_spell` and `tokenize_spelling`.
-/

namespace InfixCalc

open Lexeme Token

/-! ## Spellings -/

/-- The token is scanned from its own text: it is no unknown character, and a number is a run of digits
and points. -/
def Token.IsSpelled : Token → Prop
  | number text => text ≠ "" ∧ text.toList.all isNumeral = true
  | unknown _ => False
  | operator _ | opening | closing => True

instance : DecidablePred Token.IsSpelled
  | .number text => inferInstanceAs (Decidable (text ≠ "" ∧ text.toList.all isNumeral = true))
  | .unknown _ => inferInstanceAs (Decidable False)
  | .operator _ | .opening | .closing => inferInstanceAs (Decidable True)

/-- A token and the text in front of it that separates it from the last one. -/
structure Spaced where
  gap : String
  token : Token
deriving DecidableEq, Repr

namespace Spaced

/-- The text of all items, and then the tail. -/
def spell (tail : String) : List Spaced → String
  | [] => tail
  | item :: items => item.gap ++ item.token.text ++ spell tail items

/-- The lexemes of all items if the text begins at byte `start`. -/
def place (start : Nat) : List Spaced → List Lexeme
  | [] => []
  | item :: items =>
    let first := start + item.gap.utf8ByteSize
    let stop := first + item.token.text.utf8ByteSize
    ⟨item.token, ⟨first, stop⟩⟩ :: place stop items

/-- There is a gap between two numbers. -/
def Apart (item next : Spaced) : Prop :=
  item.token.isNumber = true → next.token.isNumber = true → next.gap ≠ ""

instance : DecidableRel Apart := fun item next =>
  inferInstanceAs (Decidable (item.token.isNumber = true → next.token.isNumber = true → next.gap ≠ ""))

end Spaced

/-- A list of tokens written one behind the other, with blanks and tabs around them. -/
structure Spelling where
  items : List Spaced
  tail : String
  isSpelled : ∀ item ∈ items, item.token.IsSpelled := by decide
  isSeparator_gap : ∀ item ∈ items, item.gap.toList.all isSeparator = true := by decide
  isSeparator_tail : tail.toList.all isSeparator = true := by decide
  apart : items.IsChain Spaced.Apart := by decide

namespace Spelling

/-- The text that is written. -/
def source (s : Spelling) : String := Spaced.spell s.tail s.items

def tokens (s : Spelling) : List Token := s.items.map (·.token)

/-- The tokens with the spans at which they are written. -/
def lexemes (s : Spelling) : List Lexeme := Spaced.place 0 s.items

end Spelling

/-! ## Scanning a spelling -/

theorem Span.byteSize_toList (text : String) : byteSize text.toList = text.utf8ByteSize := by
  rw [← utf8ByteSize_ofList, String.ofList_toList]

namespace Lexeme

theorem scanFrom_separators {gap : List Char} (h : gap.all isSeparator = true) (start : Nat)
    (rest : List Char) :
    scanFrom start (gap ++ rest) = scanFrom (start + Span.byteSize gap) rest := by
  induction gap generalizing start with
  | nil => rfl
  | cons c gap ih =>
    rw [List.all_cons, Bool.and_eq_true] at h
    obtain ⟨hc, hgap⟩ := h
    rw [List.cons_append, scanFrom_separator hc, ih hgap, Span.byteSize, Nat.add_assoc]

/-- A token that is written out is scanned as itself, unless it is a number that goes on. -/
theorem scanFrom_text {token : Token} (h : token.IsSpelled) {rest : List Char}
    (hrest : token.isNumber = true → Parted rest) (start : Nat) :
    scanFrom start (token.text.toList ++ rest) =
      ⟨token, ⟨start, start + Span.byteSize token.text.toList⟩⟩ ::
        scanFrom (start + Span.byteSize token.text.toList) rest := by
  cases token with
  | number text =>
    have hne : text.toList ≠ [] := fun hnil => h.1 (String.toList_eq_nil_iff.mp hnil)
    show scanFrom start (text.toList ++ rest) = _
    rw [scanFrom_numerals hne (List.all_eq_true.mp h.2) (hrest rfl), String.ofList_toList]
    rfl
  | operator op =>
    have htext : (operator op).text.toList = [op.symbol] := String.toList_singleton _
    have htoken : ofChar op.symbol = .operator op := by cases op <;> rfl
    rw [htext, List.singleton_append, scanFrom_symbol (by cases op <;> rfl) (by cases op <;> rfl),
      htoken]
    rfl
  | opening | closing => exact scanFrom_symbol rfl rfl start rest
  | unknown c => exact h.elim

end Lexeme

namespace Spaced

theorem toList_spell_cons (tail : String) (item : Spaced) (items : List Spaced) :
    (spell tail (item :: items)).toList =
      item.gap.toList ++ (item.token.text.toList ++ (spell tail items).toList) := by
  rw [spell, String.toList_append, String.toList_append, List.append_assoc]

/-- A token that is no number does not begin with a digit or a point. -/
theorem parted_text {token : Token} (h : token.IsSpelled) (hnumber : token.isNumber = false)
    (rest : List Char) : Parted (token.text.toList ++ rest) := by
  cases token with
  | number text => cases hnumber
  | operator op => cases op <;> exact parted_cons rfl rest
  | opening | closing => exact parted_cons rfl rest
  | unknown c => exact h.elim

theorem parted_of_isSeparator {gap : List Char} (hne : gap ≠ [])
    (hgap : gap.all isSeparator = true) (rest : List Char) : Parted (gap ++ rest) := by
  cases gap with
  | nil => exact absurd rfl hne
  | cons c gap =>
    exact parted_cons (isNumeral_of_isSeparator (List.all_eq_true.mp hgap c List.mem_cons_self)) _

variable {tail : String} {items : List Spaced}

/-- What is written behind a number does not prolong it. -/
theorem parted_spell {item : Spaced} (hspelled : ∀ item ∈ items, item.token.IsSpelled)
    (hgaps : ∀ item ∈ items, item.gap.toList.all isSeparator = true)
    (htail : tail.toList.all isSeparator = true) (hapart : ∀ next ∈ items.head?, item.Apart next)
    (hnumber : item.token.isNumber = true) : Parted (spell tail items).toList := by
  cases items with
  | nil =>
    by_cases hnil : tail.toList = []
    · simp [spell, hnil, Parted]
    · simpa [spell] using parted_of_isSeparator hnil htail []
  | cons next items =>
    rw [toList_spell_cons]
    by_cases hgap : next.gap.toList = []
    · -- Without a gap the next token is no number.
      have hnext : next.token.isNumber = false := by
        rw [Bool.eq_false_iff]
        intro hnext
        exact hapart next rfl hnumber hnext (String.toList_eq_nil_iff.mp hgap)
      rw [hgap, List.nil_append]
      exact parted_text (hspelled next List.mem_cons_self) hnext _
    · exact parted_of_isSeparator hgap (hgaps next List.mem_cons_self) _

/-- **Scanning gives every token back at its place.** -/
theorem scanFrom_spell (hspelled : ∀ item ∈ items, item.token.IsSpelled)
    (hgaps : ∀ item ∈ items, item.gap.toList.all isSeparator = true)
    (htail : tail.toList.all isSeparator = true) (hapart : items.IsChain Apart) (start : Nat) :
    scanFrom start (spell tail items).toList = place start items := by
  induction items generalizing start with
  | nil =>
    have hscan := scanFrom_separators htail start []
    rwa [List.append_nil] at hscan
  | cons item items ih =>
    obtain ⟨hitem, hspelled⟩ := List.forall_mem_cons.mp hspelled
    obtain ⟨hgap, hgaps⟩ := List.forall_mem_cons.mp hgaps
    obtain ⟨hnext, hapart⟩ := List.isChain_cons.mp hapart
    rw [toList_spell_cons, scanFrom_separators hgap,
      scanFrom_text hitem (parted_spell hspelled hgaps htail hnext), ih hspelled hgaps hapart]
    simp only [place, Span.byteSize_toList]

theorem map_token_place (start : Nat) (items : List Spaced) :
    (place start items).map (·.token) = items.map (·.token) := by
  induction items generalizing start with
  | nil => rfl
  | cons item items ih => rw [place, List.map_cons, List.map_cons, ih]

end Spaced

namespace Spelling

theorem scan_source (s : Spelling) : scan s.source = s.lexemes :=
  Spaced.scanFrom_spell s.isSpelled s.isSeparator_gap s.isSeparator_tail s.apart 0

theorem ofSource_source (s : Spelling) : Token.ofSource s.source = s.tokens := by
  rw [Token.ofSource, scan_source, lexemes, Spaced.map_token_place]
  rfl

theorem unknown_not_mem_tokens (s : Spelling) (c : Char) : .unknown c ∉ s.tokens := by
  intro hmem
  obtain ⟨item, hitem, htoken⟩ := List.mem_map.mp hmem
  have hspelled := s.isSpelled item hitem
  rw [htoken] at hspelled
  exact hspelled

end Spelling

/-- **Tokens that are spelled out are tokenized into themselves,** each at the place where it is written.
So the spacing of a source does not matter: whatever else spells the same tokens is converted and parsed
into the same, or fails with the same error, which may lie somewhere else. -/
theorem tokenize_spelling (s : Spelling) :
    tokenize s.source = .ok s.lexemes ∧ s.lexemes.map (·.token) = s.tokens ∧
    ∀ s' : Spelling, s'.tokens = s.tokens →
      (Postfix.ofSource s'.source).mapError ParseError.unplaced =
        (Postfix.ofSource s.source).mapError ParseError.unplaced ∧
      (Expr.parse s'.source).mapError ParseError.unplaced =
        (Expr.parse s.source).mapError ParseError.unplaced := by
  refine ⟨?_, Spaced.map_token_place 0 s.items, fun s' htokens => ?_⟩
  · rw [tokenize_eq_ok_iff, s.ofSource_source]
    exact ⟨s.scan_source.symm, s.unknown_not_mem_tokens⟩
  · have hsource : Token.ofSource s'.source = Token.ofSource s.source := by
      rw [s'.ofSource_source, s.ofSource_source, htokens]
    exact ⟨Postfix.ofSource_congr hsource, Expr.parse_congr hsource⟩

/-- Where the parenthesis without a partner stands depends on the spacing, and what is wrong does not. -/
theorem tokenize_spelling_stray :
    let s : Spelling := { items := [⟨"", .number "2"⟩, ⟨" ", .number ".5"⟩, ⟨"", .closing⟩], tail := "" }
    let s' : Spelling :=
      { items := [⟨"\t", .number "2"⟩, ⟨" \t", .number ".5"⟩, ⟨" ", .closing⟩], tail := " " }
    Lexeme.tokenize "\t2 \t.5 ) " =
        .ok [⟨.number "2", ⟨1, 2⟩⟩, ⟨.number ".5", ⟨4, 6⟩⟩, ⟨.closing, ⟨7, 8⟩⟩] ∧
      s'.tokens = s.tokens ∧
      Expr.parse "2 .5)" = .error (.unmatchedParenthesis ⟨4, 5⟩) ∧
      (Expr.parse "\t2 \t.5 ) ").mapError ParseError.unplaced =
        .error (.unmatchedParenthesis ⟨0, 0⟩) := by
  intro s s'
  have hparse : Expr.parse s.source = .error (.unmatchedParenthesis ⟨4, 5⟩) := by decide +kernel
  have hsame := ((tokenize_spelling s).2.2 s' rfl).2
  rw [hparse] at hsame
  exact ⟨(tokenize_spelling s').1, rfl, hparse, hsame⟩

end InfixCalc
