import InfixCalc.Proofs.Scanning
/-!
# The lexemes in the source text

The lexemes of a source text stand one behind the other in it, and what is left between them are blanks
and tabs. Each lexeme is a run of digits and points that cannot be prolonged, or a single character.

Main statements: `Lexeme.cuts_iff_eq_scanFrom`, the lexemes are the only ones that cut up the text in
this way, and `scan_partition`.
-/

namespace InfixCalc

/-! ## Spans and the text at them -/

/-- The span belongs to a text within the source: it is not empty, it begins and ends between
characters, and its bytes are those of the text. -/
structure Span.Locates (span : Span) (source text : String) : Prop where
  start_lt_stop : span.start < span.stop
  stop_le : span.stop ≤ source.utf8ByteSize
  isValid_start : String.Pos.Raw.IsValid source ⟨span.start⟩
  isValid_stop : String.Pos.Raw.IsValid source ⟨span.stop⟩
  extract_eq : source.toUTF8.extract span.start span.stop = text.toUTF8

namespace Span

theorem utf8ByteSize_ofList (cs : List Char) : (String.ofList cs).utf8ByteSize = byteSize cs := by
  induction cs with
  | nil => rfl
  | cons c cs ih =>
    rw [String.ofList_cons, String.utf8ByteSize_append, String.utf8ByteSize_singleton, ih, byteSize]

theorem byteSize_pos {cs : List Char} (h : cs ≠ []) : 0 < byteSize cs := by
  cases cs with
  | nil => exact absurd rfl h
  | cons c cs => exact Nat.lt_of_lt_of_le c.utf8Size_pos (Nat.le_add_right ..)

/-- A text is cut in two at a byte offset in one way only. -/
theorem append_inj {cs cs' ds ds' : List Char} (happend : cs ++ ds = cs' ++ ds')
    (hsize : byteSize cs = byteSize cs') : cs = cs' ∧ ds = ds' := by
  induction cs generalizing cs' with
  | nil =>
    cases cs' with
    | nil => exact ⟨rfl, happend⟩
    | cons c cs' => exact absurd hsize (Nat.ne_of_lt (byteSize_pos (List.cons_ne_nil c cs')))
  | cons c cs ih =>
    cases cs' with
    | nil => exact absurd hsize.symm (Nat.ne_of_lt (byteSize_pos (List.cons_ne_nil c cs)))
    | cons c' cs' =>
      obtain ⟨rfl, hrest⟩ := List.cons.inj happend
      obtain ⟨rfl, rfl⟩ := ih hrest (Nat.add_left_cancel hsize)
      exact ⟨rfl, rfl⟩

theorem locates_of_eq_append {source before text behind : String}
    (h : source = before ++ text ++ behind) (hne : text ≠ "") :
    Locates ⟨before.utf8ByteSize, before.utf8ByteSize + text.utf8ByteSize⟩ source text where
  start_lt_stop := by
    have hpos : text.utf8ByteSize ≠ 0 := fun h0 => hne (String.utf8ByteSize_eq_zero_iff.mp h0)
    dsimp only
    omega
  stop_le := by
    rw [h, String.utf8ByteSize_append, String.utf8ByteSize_append]
    exact Nat.le_add_right ..
  isValid_start := String.Pos.Raw.isValid_iff_exists_append.mpr
    ⟨before, text ++ behind, by rw [h, String.append_assoc], rfl⟩
  isValid_stop := by
    refine String.Pos.Raw.isValid_iff_exists_append.mpr ⟨before ++ text, behind, h, ?_⟩
    rw [← String.utf8ByteSize_append]
    rfl
  extract_eq := by
    have hbytes : source.toByteArray =
        before.toByteArray ++ (text.toByteArray ++ behind.toByteArray) := by
      rw [h, String.append_assoc, String.toByteArray_append, String.toByteArray_append]
    simp only [← String.size_toByteArray]
    calc
      source.toByteArray.extract before.toByteArray.size
            (before.toByteArray.size + text.toByteArray.size)
        = (text.toByteArray ++ behind.toByteArray).extract 0 text.toByteArray.size := by
          rw [hbytes]
          exact ByteArray.extract_append_size_add (i := 0)
      _ = text.toByteArray := ByteArray.extract_append_eq_left rfl

theorem locates_of_toList_eq {source : String} {before text behind : List Char}
    (h : source.toList = before ++ text ++ behind) (hne : text ≠ []) :
    Locates ⟨byteSize before, byteSize before + byteSize text⟩ source (String.ofList text) := by
  have hsource : source = String.ofList before ++ String.ofList text ++ String.ofList behind := by
    rw [← String.ofList_append, ← String.ofList_append, ← h, String.ofList_toList]
  have hlocates := locates_of_eq_append hsource (by simpa using hne)
  rwa [utf8ByteSize_ofList, utf8ByteSize_ofList] at hlocates

end Span

/-! ## Cutting up a text -/

namespace Lexeme

open Token

/-- The characters do not end within a number. -/
def Closed (cs : List Char) : Prop := ∀ c ∈ cs.getLast?, isNumeral c = false

/-- The lexeme is what `text` makes, with `before` in front of it and `behind` after it. -/
inductive Fits (before : List Char) : List Char → List Char → Lexeme → Prop
  | number {run behind} : run ≠ [] → (∀ c ∈ run, isNumeral c = true) → Closed before →
    Parted behind → Fits before run behind ⟨.number (String.ofList run),
      ⟨Span.byteSize before, Span.byteSize before + Span.byteSize run⟩⟩
  | symbol {c behind} : isSeparator c = false → isNumeral c = false →
    Fits before [c] behind ⟨ofChar c, ⟨Span.byteSize before, Span.byteSize before + c.utf8Size⟩⟩

/-- Behind `before`, the text consists of separators and of pieces that make the lexemes. -/
inductive Cuts : List Char → List Char → List Lexeme → Prop
  | nil {before} : Cuts before [] []
  | separator {before c cs lexemes} : isSeparator c = true → Cuts (before ++ [c]) cs lexemes →
    Cuts before (c :: cs) lexemes
  | lexeme {before text behind lexeme lexemes} : Fits before text behind lexeme →
    Cuts (before ++ text) behind lexemes → Cuts before (text ++ behind) (lexeme :: lexemes)

theorem closed_concat {c : Char} (h : isNumeral c = false) (before : List Char) :
    Closed (before ++ [c]) := by
  simpa [Closed] using h

theorem parted_dropWhile (cs : List Char) : Parted (cs.dropWhile isNumeral) := by
  intro c hc
  have hnot := List.head?_dropWhile_not isNumeral cs
  rw [Option.mem_def.mp hc] at hnot
  simpa using hnot

theorem isNumeral_of_isSeparator {c : Char} (h : isSeparator c = true) : isNumeral c = false := by
  rw [Bool.eq_false_iff]
  intro hnum
  rw [isSeparator_of_isNumeral hnum] at h
  cases h

/-- The lexemes of a text cut it up, unless it begins within a number. -/
theorem cuts_scanFrom (before cs : List Char) (h : Closed before ∨ Parted cs) :
    Cuts before cs (scanFrom (Span.byteSize before) cs) := by
  match cs with
  | [] => exact .nil
  | c :: cs =>
    have hsize : Span.byteSize (before ++ [c]) = Span.byteSize before + c.utf8Size := by
      simp [Span.byteSize_append, Span.byteSize]
    by_cases hsep : isSeparator c = true
    · rw [scanFrom_separator hsep, ← hsize]
      exact .separator hsep
        (cuts_scanFrom _ _ (.inl (closed_concat (isNumeral_of_isSeparator hsep) before)))
    by_cases hnum : isNumeral c = true
    · -- The whole run is one lexeme, so the induction goes on behind it.
      have hclosed : Closed before := h.resolve_right fun hparted => by
        rw [hparted c rfl] at hnum
        cases hnum
      have hne : c :: cs.takeWhile isNumeral ≠ [] := List.cons_ne_nil _ _
      have hrun : ∀ d ∈ c :: cs.takeWhile isNumeral, isNumeral d = true :=
        List.forall_mem_cons.mpr ⟨hnum, List.all_eq_true.mp List.all_takeWhile⟩
      have hrest := parted_dropWhile cs
      have hlen := (List.dropWhile_sublist isNumeral (l := cs)).length_le
      have hcs : c :: cs = (c :: cs.takeWhile isNumeral) ++ cs.dropWhile isNumeral := by
        rw [List.cons_append, List.takeWhile_append_dropWhile]
      rw [hcs, scanFrom_numerals hne hrun hrest]
      refine .lexeme (.number hne hrun hclosed hrest) ?_
      rw [← Span.byteSize_append]
      exact cuts_scanFrom _ _ (.inr hrest)
    · have hsep : isSeparator c = false := by simpa using hsep
      have hnum : isNumeral c = false := by simpa using hnum
      rw [scanFrom_symbol hsep hnum]
      refine @Cuts.lexeme before [c] cs _ _ (.symbol hsep hnum) ?_
      rw [← hsize]
      exact cuts_scanFrom _ _ (.inl (closed_concat hnum before))
termination_by cs.length

theorem Cuts.eq_scanFrom {before cs : List Char} {lexemes : List Lexeme}
    (h : Cuts before cs lexemes) : lexemes = scanFrom (Span.byteSize before) cs := by
  induction h with
  | nil => rfl
  | separator hsep _ ih =>
    rw [scanFrom_separator hsep, ih, Span.byteSize_append]
    rfl
  | lexeme hfits _ ih =>
    rw [ih, Span.byteSize_append]
    cases hfits with
    | number hne hrun _ hrest => rw [scanFrom_numerals hne hrun hrest]
    | symbol hsep hnum => exact (scanFrom_symbol hsep hnum _ _).symm

/-- **A source text is cut up in one way only, into its lexemes.** -/
theorem cuts_iff_eq_scan {source : String} {lexemes : List Lexeme} :
    Cuts [] source.toList lexemes ↔ lexemes = scan source := by
  constructor
  · exact Cuts.eq_scanFrom
  · rintro rfl
    exact cuts_scanFrom [] _ (.inl (by simp [Closed]))

/-! ## Where the lexemes stand -/

theorem Fits.span_eq {before text behind : List Char} {lexeme : Lexeme}
    (h : Fits before text behind lexeme) :
    lexeme.span = ⟨Span.byteSize before, Span.byteSize before + Span.byteSize text⟩ := by
  cases h <;> rfl

theorem Fits.ne_nil {before text behind : List Char} {lexeme : Lexeme}
    (h : Fits before text behind lexeme) : text ≠ [] := by
  cases h with
  | number hne => exact hne
  | symbol => exact List.cons_ne_nil _ _

namespace Cuts

variable {before cs : List Char} {lexemes : List Lexeme}

theorem exists_fits (h : Cuts before cs lexemes) {lexeme : Lexeme} (hmem : lexeme ∈ lexemes) :
    ∃ front text behind, cs = front ++ text ++ behind ∧
      Fits (before ++ front) text behind lexeme := by
  induction h with
  | nil => cases hmem
  | @separator before c cs lexemes hsep hcuts ih =>
    obtain ⟨front, text, behind, rfl, hfits⟩ := ih hmem
    exact ⟨c :: front, text, behind, rfl, by simpa using hfits⟩
  | @lexeme before text behind first lexemes hfirst hcuts ih =>
    rcases List.mem_cons.mp hmem with rfl | hmem
    · exact ⟨[], text, behind, rfl, by simpa using hfirst⟩
    · obtain ⟨front, text', behind', rfl, hfits⟩ := ih hmem
      exact ⟨text ++ front, text', behind', by simp, by simpa using hfits⟩

theorem pairwise (h : Cuts before cs lexemes) :
    lexemes.Pairwise fun lexeme lexeme' => lexeme.span.stop ≤ lexeme'.span.start := by
  induction h with
  | nil => exact .nil
  | separator _ _ ih => exact ih
  | lexeme hfits hcuts ih =>
    refine .cons (fun lexeme' hmem => ?_) ih
    obtain ⟨front, text', behind', -, hfits'⟩ := hcuts.exists_fits hmem
    rw [hfits.span_eq, hfits'.span_eq, Span.byteSize_append, Span.byteSize_append]
    exact Nat.le_add_right ..

/-- A character that is no separator belongs to a lexeme. -/
theorem covered (h : Cuts before cs lexemes) {front behind : List Char} {c : Char}
    (hcs : cs = front ++ c :: behind) (hsep : isSeparator c = false) :
    ∃ lexeme ∈ lexemes, lexeme.span.start ≤ Span.byteSize (before ++ front) ∧
      Span.byteSize (before ++ front) + c.utf8Size ≤ lexeme.span.stop := by
  induction h generalizing front with
  | nil => simp at hcs
  | @separator before d cs lexemes hd hcuts ih =>
    cases front with
    | nil =>
      cases hcs
      rw [hsep] at hd
      cases hd
    | cons d' front =>
      cases hcs
      simpa using ih rfl
  | @lexeme before text rest first lexemes hfits hcuts ih =>
    rcases List.append_eq_append_iff.mp hcs with ⟨front, rfl, hrest⟩ | ⟨inner, rfl, hinner⟩
    · obtain ⟨lexeme, hmem, hstart, hstop⟩ := ih hrest
      rw [List.append_assoc] at hstart hstop
      exact ⟨lexeme, List.mem_cons_of_mem _ hmem, hstart, hstop⟩
    · cases inner with
      | nil =>
        have hrest : rest = [] ++ c :: behind := hinner.symm
        obtain ⟨lexeme, hmem, hstart, hstop⟩ := ih hrest
        simp only [List.append_nil] at hstart hstop
        exact ⟨lexeme, List.mem_cons_of_mem _ hmem, hstart, hstop⟩
      | cons d inner =>
        cases hinner
        refine ⟨first, List.mem_cons_self, ?_⟩
        rw [hfits.span_eq]
        simp only [Span.byteSize_append, Span.byteSize]
        omega

end Cuts

theorem exists_fits_of_mem_scan {source : String} {lexeme : Lexeme} (h : lexeme ∈ scan source) :
    ∃ before text behind, source.toList = before ++ text ++ behind ∧
      Fits before text behind lexeme := by
  obtain ⟨front, text, behind, hsource, hfits⟩ := (cuts_iff_eq_scan.mpr rfl).exists_fits h
  exact ⟨front, text, behind, hsource, by simpa using hfits⟩

/-! ## What makes a token -/

theorem isStrange_of_ofChar {c d : Char} (hsep : isSeparator c = false) (hnum : isNumeral c = false)
    (h : ofChar c = .unknown d) : c = d ∧ isStrange d = true := by
  have hcd : c = d := by
    unfold ofChar at h
    split at h
    · cases h
    · cases h
    · split at h <;> cases h
      rfl
  subst hcd
  exact ⟨rfl, by simp [isStrange, hsep, hnum, h]⟩

theorem text_ofChar {c : Char} (h : ofChar c ≠ .unknown c) : (ofChar c).text = c.toString := by
  unfold ofChar at h ⊢
  split
  · rfl
  · rfl
  · split
    · rename_i op hop
      exact congrArg Char.toString (Operator.symbol_of_ofSymbol? hop)
    · rename_i hop
      exact absurd (by simp [hop]) h

namespace Fits

variable {before text behind : List Char} {lexeme : Lexeme}

theorem locates {source : String} (h : Fits before text behind lexeme)
    (hsource : source.toList = before ++ text ++ behind) :
    lexeme.span.Locates source (String.ofList text) := by
  rw [h.span_eq]
  exact Span.locates_of_toList_eq hsource h.ne_nil

theorem text_eq (h : Fits before text behind lexeme) (hknown : ∀ c, lexeme.token ≠ .unknown c) :
    lexeme.token.text = String.ofList text := by
  cases h with
  | number => rfl
  | symbol => exact (text_ofChar (hknown _)).trans String.singleton_eq_ofList

theorem unknown {c : Char} {span : Span} (h : Fits before text behind ⟨.unknown c, span⟩) :
    text = [c] ∧ isStrange c = true := by
  generalize hlexeme : (⟨.unknown c, span⟩ : Lexeme) = lexeme at h
  cases h with
  | number => cases hlexeme
  | symbol hsep hnum =>
    obtain ⟨rfl, hstrange⟩ := isStrange_of_ofChar hsep hnum (congrArg Lexeme.token hlexeme).symm
    exact ⟨rfl, hstrange⟩

end Fits

/-- The lexeme of a known token stands where its text does. -/
theorem locates_text {source : String} {lexeme : Lexeme} (h : lexeme ∈ scan source)
    (hknown : ∀ c, lexeme.token ≠ .unknown c) : lexeme.span.Locates source lexeme.token.text := by
  obtain ⟨before, text, behind, hsource, hfits⟩ := exists_fits_of_mem_scan h
  rw [hfits.text_eq hknown]
  exact hfits.locates hsource

/-- The lexeme of a strange character stands where the character does. -/
theorem locates_unknown {source : String} {c : Char} {span : Span}
    (h : ⟨.unknown c, span⟩ ∈ scan source) :
    span.Locates source c.toString ∧ isStrange c = true := by
  obtain ⟨before, text, behind, hsource, hfits⟩ := exists_fits_of_mem_scan h
  obtain ⟨rfl, hstrange⟩ := hfits.unknown
  refine ⟨?_, hstrange⟩
  rw [show c.toString = String.ofList [c] from String.singleton_eq_ofList]
  exact hfits.locates hsource

theorem isStrange_eq_false_of_mem {c : Char} (h : c ∈ "0123456789.+-*/^() \t".toList) :
    isStrange c = false := by
  have hall : ("0123456789.+-*/^() \t".toList.all fun c => !isStrange c) = true := by decide
  simpa using List.all_eq_true.mp hall c h

/-! ## Numbers that cannot be prolonged -/

/-- The character stands at a byte offset of the source. -/
def HasCharAt (source : String) (offset : Nat) (c : Char) : Prop :=
  ∃ before behind, source.toList = before ++ c :: behind ∧ Span.byteSize before = offset

theorem exists_covering_of_hasCharAt {source : String} {offset : Nat} {c : Char}
    (h : HasCharAt source offset c) (hsep : isSeparator c = false) :
    ∃ lexeme ∈ scan source, lexeme.span.start ≤ offset ∧
      offset + c.utf8Size ≤ lexeme.span.stop := by
  obtain ⟨before, behind, hsource, rfl⟩ := h
  exact (cuts_iff_eq_scan.mpr rfl).covered hsource hsep

/-- A number consists of digits and points, and none stands next to it. -/
theorem maximal_of_number_mem_scan {source text : String} {span : Span}
    (h : ⟨.number text, span⟩ ∈ scan source) :
    (∀ c ∈ text.toList, isNumeral c = true) ∧
      ∀ offset c, HasCharAt source offset c →
        offset + c.utf8Size = span.start ∨ offset = span.stop → isNumeral c = false := by
  obtain ⟨before, run, behind, hsource, hfits⟩ := exists_fits_of_mem_scan h
  generalize hlexeme : (⟨.number text, span⟩ : Lexeme) = lexeme at hfits
  cases hfits with
  | symbol => exact absurd (congrArg Lexeme.token hlexeme).symm (ofChar_ne_number _ _)
  | number hne hrun hclosed hparted =>
    cases hlexeme
    refine ⟨by simpa using hrun, ?_⟩
    rintro offset c ⟨front, rest, hsplit, rfl⟩ (hstart | hstop)
    · have hfront : before = front ++ [c] := by
        have happend : before ++ (run ++ behind) = (front ++ [c]) ++ rest := by
          rw [← List.append_assoc, ← hsource, hsplit, List.append_assoc]
          rfl
        refine (Span.append_inj happend ?_).1
        simpa [Span.byteSize_append, Span.byteSize] using hstart.symm
      exact hclosed c (by simp [hfront])
    · have hrest : behind = c :: rest := by
        have happend : (before ++ run) ++ behind = front ++ c :: rest := hsource.symm.trans hsplit
        refine (Span.append_inj happend ?_).2
        simpa [Span.byteSize_append] using hstop.symm
      exact hparted c (by simp [hrest])

/-! ## The first strange character -/

theorem findSome?_error?_eq_none {lexemes : List Lexeme}
    (h : ∀ c span, ⟨.unknown c, span⟩ ∉ lexemes) : lexemes.findSome? error? = none := by
  refine List.findSome?_eq_none_iff.mpr fun lexeme hmem => error?_eq_none_iff.mpr fun c htoken => ?_
  obtain ⟨token, span⟩ := lexeme
  cases htoken
  exact h c span hmem

theorem tokenize_of_known {source : String} (h : ∀ c span, ⟨.unknown c, span⟩ ∉ scan source) :
    tokenize source = .ok (scan source) := by
  simp [tokenize, findSome?_error?_eq_none h]

theorem tokenize_of_first_unknown {source : String} {front rest : List Lexeme} {c : Char}
    {span : Span} (hscan : scan source = front ++ ⟨.unknown c, span⟩ :: rest)
    (hfront : ∀ c' span', ⟨.unknown c', span'⟩ ∉ front) :
    tokenize source = .error (.strangeCharacter c span) := by
  simp [tokenize, hscan, findSome?_error?_eq_none hfront, List.findSome?_cons, error?]

/-! ## The partition -/

/-- What the lexemes of a source text have to do with the text. -/
structure Partition (source : String) (lexemes : List Lexeme) : Prop where
  /-- They follow each other and do not overlap. -/
  ordered : lexemes.Pairwise fun lexeme lexeme' => lexeme.span.stop ≤ lexeme'.span.start
  /-- The text of a known token is what stands at its span. -/
  known : ∀ lexeme ∈ lexemes, (∀ c, lexeme.token ≠ .unknown c) →
    lexeme.span.Locates source lexeme.token.text
  /-- An unknown token is a single character that no other token has. -/
  unknown : ∀ c span, ⟨.unknown c, span⟩ ∈ lexemes →
    span.Locates source c.toString ∧ c ∉ "0123456789.+-*/^() \t".toList
  /-- A number is a run of digits and points, and no digit or point stands next to it. -/
  maximal : ∀ text span, ⟨.number text, span⟩ ∈ lexemes →
    (∀ c ∈ text.toList, isNumeral c = true) ∧
      ∀ offset c, HasCharAt source offset c →
        offset + c.utf8Size = span.start ∨ offset = span.stop → isNumeral c = false
  /-- Nothing else stands outside their spans than blanks and tabs. -/
  covered : ∀ offset c, HasCharAt source offset c →
    (∀ lexeme ∈ lexemes, ¬ (lexeme.span.start ≤ offset ∧
      offset + c.utf8Size ≤ lexeme.span.stop)) → c = ' ' ∨ c = '\t'

theorem partition_scan (source : String) : Partition source (scan source) where
  ordered := (cuts_iff_eq_scan.mpr rfl).pairwise
  known _ hmem hknown := locates_text hmem hknown
  unknown c span hmem := by
    obtain ⟨hlocates, hstrange⟩ := locates_unknown hmem
    refine ⟨hlocates, fun hc => ?_⟩
    rw [isStrange_eq_false_of_mem hc] at hstrange
    cases hstrange
  maximal _ _ hmem := maximal_of_number_mem_scan hmem
  covered offset c hc houtside := by
    by_cases hsep : isSeparator c = true
    · simpa [isSeparator] using hsep
    · obtain ⟨lexeme, hmem, hinside⟩ := exists_covering_of_hasCharAt hc (by simpa using hsep)
      exact absurd hinside (houtside lexeme hmem)

end Lexeme

open Lexeme in
/-- **The lexemes partition the source text.** The tokens are the lexemes, if there is no unknown one
among them; otherwise the first unknown one is the error, whatever follows it. -/
theorem scan_partition (source : String) :
    Partition source (scan source) ∧
    ((∀ c span, ⟨.unknown c, span⟩ ∉ scan source) → tokenize source = .ok (scan source)) ∧
    ∀ front c span rest, scan source = front ++ ⟨.unknown c, span⟩ :: rest →
      (∀ c' span', ⟨.unknown c', span'⟩ ∉ front) →
        tokenize source = .error (.strangeCharacter c span) :=
  ⟨partition_scan source, tokenize_of_known,
    fun _ _ _ _ hscan hfront => tokenize_of_first_unknown hscan hfront⟩

open Lexeme in
/-- The first of two strange characters is two bytes long and stands within a number. -/
theorem scan_partition_strange :
    scan "2.é1#" = [⟨.number "2.", ⟨0, 2⟩⟩, ⟨.unknown 'é', ⟨2, 4⟩⟩, ⟨.number "1", ⟨4, 5⟩⟩,
      ⟨.unknown '#', ⟨5, 6⟩⟩] ∧
    tokenize "2.é1#" = .error (.strangeCharacter 'é' ⟨2, 4⟩) := by
  have hscan : scan "2.é1#" = [⟨.number "2.", ⟨0, 2⟩⟩, ⟨.unknown 'é', ⟨2, 4⟩⟩,
      ⟨.number "1", ⟨4, 5⟩⟩, ⟨.unknown '#', ⟨5, 6⟩⟩] := by decide +kernel
  exact ⟨hscan, (scan_partition "2.é1#").2.2 [⟨.number "2.", ⟨0, 2⟩⟩] _ _ _ hscan (by simp)⟩

end InfixCalc
