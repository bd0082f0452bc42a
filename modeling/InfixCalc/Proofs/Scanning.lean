import InfixCalc.Token.Scan
/-!
# Scanning piece by piece

The tokens of a text are those of its pieces, unless a piece ends within a number. Where a token stands
does not matter for what it is.

Main statements: `Scans.append`, `Scans.numeral` and `Lexeme.tokenize_eq_ok_iff`.
-/

namespace InfixCalc

/-- The tokens of a source text, those of unknown characters included. -/
def Token.ofSource (source : String) : List Token := (Lexeme.scan source).map (·.token)

/-- A character that begins no token. -/
def Token.isStrange (c : Char) : Bool :=
  !isSeparator c && !isNumeral c && ofChar c == .unknown c

namespace Lexeme

open Token

/-! ## Single characters -/

theorem scanFrom_separator {c : Char} (h : isSeparator c = true) (start : Nat) (cs : List Char) :
    scanFrom start (c :: cs) = scanFrom (start + c.utf8Size) cs := by
  simp [scanFrom, h]

theorem scanFrom_symbol {c : Char} (hsep : isSeparator c = false) (hnum : isNumeral c = false)
    (start : Nat) (cs : List Char) :
    scanFrom start (c :: cs) =
      ⟨ofChar c, ⟨start, start + c.utf8Size⟩⟩ :: scanFrom (start + c.utf8Size) cs := by
  simp [scanFrom, hsep, hnum]

theorem isSeparator_of_isNumeral {c : Char} (h : isNumeral c = true) : isSeparator c = false := by
  rw [Bool.eq_false_iff]
  intro hsep
  simp only [isSeparator, Bool.or_eq_true, beq_iff_eq] at hsep
  rcases hsep with rfl | rfl <;> cases h

theorem scanFrom_numeral {c : Char} (h : isNumeral c = true) (start : Nat) (cs : List Char) :
    scanFrom start (c :: cs) = consNumeral start c (scanFrom (start + c.utf8Size) cs) := by
  simp [scanFrom, h, isSeparator_of_isNumeral h]

theorem ofChar_ne_number (c : Char) (text : String) : ofChar c ≠ .number text := by
  unfold ofChar
  split
  · simp
  · simp
  · split <;> simp

/-! ## Numbers -/

theorem le_start_of_mem_consNumeral {start : Nat} {c : Char} {rest : List Lexeme} {lexeme : Lexeme}
    (hrest : ∀ lexeme ∈ rest, start ≤ lexeme.span.start) (h : lexeme ∈ consNumeral start c rest) :
    start ≤ lexeme.span.start := by
  unfold consNumeral at h
  split at h
  · split at h
    all_goals rcases List.mem_cons.mp h with rfl | h
    all_goals first | exact Nat.le_refl _ | exact hrest _ (by simp_all)
  · rcases List.mem_cons.mp h with rfl | h
    · exact Nat.le_refl _
    · exact hrest _ h

theorem le_start_of_mem_scanFrom {start : Nat} {cs : List Char} {lexeme : Lexeme}
    (h : lexeme ∈ scanFrom start cs) : start ≤ lexeme.span.start := by
  induction cs generalizing start lexeme with
  | nil => cases h
  | cons c cs ih =>
    have hrest : ∀ lexeme ∈ scanFrom (start + c.utf8Size) cs, start ≤ lexeme.span.start :=
      fun lexeme hmem => Nat.le_trans (Nat.le_add_right ..) (ih hmem)
    unfold scanFrom at h
    dsimp only at h
    split at h
    · exact hrest _ h
    split at h
    · exact le_start_of_mem_consNumeral hrest h
    · rcases List.mem_cons.mp h with rfl | h
      · exact Nat.le_refl _
      · exact hrest _ h

/-- The text does not begin within a number. -/
def Parted (cs : List Char) : Prop := ∀ c ∈ cs.head?, isNumeral c = false

theorem consNumeral_scanFrom_of_parted {rest : List Char} (h : Parted rest) (start : Nat)
    (c : Char) :
    consNumeral start c (scanFrom (start + c.utf8Size) rest) =
      ⟨.number c.toString, ⟨start, start + c.utf8Size⟩⟩ ::
        scanFrom (start + c.utf8Size) rest := by
  rcases hscan : scanFrom (start + c.utf8Size) rest with - | ⟨⟨token, span⟩, lexemes⟩
  · rfl
  cases token with
  | number text =>
    -- A number right behind `c` would begin with the first character of `rest`.
    suffices hspan : span.start ≠ start + c.utf8Size by simp [consNumeral, hspan]
    match rest with
    | [] => cases hscan
    | d :: rest =>
      have hd : isNumeral d = false := h d rfl
      have hpos := d.utf8Size_pos
      by_cases hsep : isSeparator d = true
      · rw [scanFrom_separator hsep] at hscan
        have hle : start + c.utf8Size + d.utf8Size ≤ span.start :=
          le_start_of_mem_scanFrom (hscan ▸ List.mem_cons_self)
        omega
      · rw [scanFrom_symbol (by simpa using hsep) hd] at hscan
        simp [ofChar_ne_number] at hscan
  | _ => rfl

/-- A run of digits and points that does not go on is one number. -/
theorem scanFrom_numerals {run rest : List Char} (hne : run ≠ [])
    (hrun : ∀ c ∈ run, isNumeral c = true) (hrest : Parted rest) (start : Nat) :
    scanFrom start (run ++ rest) =
      ⟨.number (String.ofList run), ⟨start, start + Span.byteSize run⟩⟩ ::
        scanFrom (start + Span.byteSize run) rest := by
  induction run generalizing start with
  | nil => cases hne rfl
  | cons c run ih =>
    obtain ⟨hc, hrun⟩ := List.forall_mem_cons.mp hrun
    rw [List.cons_append, scanFrom_numeral hc]
    by_cases hnil : run = []
    · subst hnil
      have htext : c.toString = String.ofList [c] := String.singleton_eq_ofList
      rw [List.nil_append, consNumeral_scanFrom_of_parted hrest, htext]
      simp only [Span.byteSize, Nat.add_zero]
    · rw [ih hnil hrun]
      simp [consNumeral, Span.byteSize, Nat.add_assoc, String.ofList_cons]

end Lexeme

/-! ## Pieces -/

open Lexeme Token

/-- In front of `rest`, the characters `cs` have the tokens `ts`. The rest has to be known because it
could prolong a number at the end of `cs`. -/
def Scans (cs : List Char) (ts : List Token) (rest : List Char) : Prop :=
  ∀ start, (scanFrom start (cs ++ rest)).map (·.token) =
    ts ++ (scanFrom (start + Span.byteSize cs) rest).map (·.token)

namespace Scans

variable {cs ds rest : List Char} {ts us : List Token}

theorem append (hcs : Scans cs ts (ds ++ rest)) (hds : Scans ds us rest) :
    Scans (cs ++ ds) (ts ++ us) rest := by
  intro start
  rw [List.append_assoc, hcs start, hds, Span.byteSize_append, Nat.add_assoc, List.append_assoc]

theorem separator {c : Char} (h : isSeparator c = true) : Scans [c] [] rest := by
  intro start
  simp [scanFrom_separator h, Span.byteSize]

theorem symbol {c : Char} (hsep : isSeparator c = false) (hnum : isNumeral c = false) :
    Scans [c] [ofChar c] rest := by
  intro start
  simp [scanFrom_symbol hsep hnum, Span.byteSize]

theorem numeral (hne : cs ≠ []) (hcs : ∀ c ∈ cs, isNumeral c = true) (hrest : Parted rest) :
    Scans cs [.number (String.ofList cs)] rest := by
  intro start
  rw [scanFrom_numerals hne hcs hrest]
  rfl

theorem ofSource_eq {source : String} (h : Scans source.toList ts []) :
    Token.ofSource source = ts := by
  have h0 := h 0
  rw [List.append_nil] at h0
  rw [Token.ofSource, scan, h0]
  simp [scanFrom]

end Scans

/-! ## Strange characters -/

namespace Lexeme

/-- No lexeme of another character is lost when a number is put in front. -/
theorem mem_consNumeral {start : Nat} {c : Char} {rest : List Lexeme} {token : Token}
    (hnumber : ∀ text, token ≠ .number text) (h : token ∈ rest.map (·.token)) :
    token ∈ (consNumeral start c rest).map (·.token) := by
  unfold consNumeral
  split
  · split
    all_goals simp_all
  · exact List.mem_cons_of_mem _ h

/-- A strange character anywhere in a text is among its tokens. -/
theorem unknown_mem_scanFrom {cs : List Char} {c : Char} (h : isStrange c = true) (hmem : c ∈ cs)
    (start : Nat) : .unknown c ∈ (scanFrom start cs).map (·.token) := by
  simp only [isStrange, Bool.and_eq_true, Bool.not_eq_true', beq_iff_eq] at h
  obtain ⟨⟨hsep, hnum⟩, htoken⟩ := h
  induction cs generalizing start with
  | nil => cases hmem
  | cons d cs ih =>
    by_cases hd : c = d
    · subst hd
      rw [scanFrom_symbol hsep hnum, List.map_cons, htoken]
      exact List.mem_cons_self
    · have hrest := ih (List.mem_of_ne_of_mem hd hmem) (start + d.utf8Size)
      unfold scanFrom
      dsimp only
      split
      · exact hrest
      split
      · exact mem_consNumeral (by simp) hrest
      · exact List.mem_cons_of_mem _ hrest

theorem error?_eq_none_iff {lexeme : Lexeme} :
    lexeme.error? = none ↔ ∀ c, lexeme.token ≠ .unknown c := by
  obtain ⟨token, span⟩ := lexeme
  cases token <;> simp [error?]

/-- A source text is tokenized exactly if none of its characters is unknown. -/
theorem tokenize_eq_ok_iff {source : String} {lexemes : List Lexeme} :
    tokenize source = .ok lexemes ↔
      lexemes = scan source ∧ ∀ c, .unknown c ∉ Token.ofSource source := by
  have hnone : (scan source).findSome? error? = none ↔ ∀ c, .unknown c ∉ Token.ofSource source := by
    simp only [List.findSome?_eq_none_iff, error?_eq_none_iff, Token.ofSource, List.mem_map,
      not_exists, not_and]
    exact ⟨fun h c lexeme hmem => h lexeme hmem c, fun h lexeme hmem c => h c lexeme hmem⟩
  rw [tokenize, ← hnone]
  cases hfind : (scan source).findSome? error? with
  | none => simp [eq_comm]
  | some e => simp

end Lexeme

end InfixCalc
