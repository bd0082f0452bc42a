import InfixCalc.Proofs.Streams
import Mathlib.Data.List.TakeWhile
/-!
# The lines in a text

Where the lines of a text stand in it: a line begins at the front of the text or behind a newline, and its
number counts the newlines in front of it. The lines of two texts with a newline between them are those of
the one and then those of the other, and a carriage return in front of each newline changes no line.

Main statements: `mem_zipIdx_lines_iff`, `lines_append_newline` and `lines_pairNewlines`.
-/

namespace InfixCalc

namespace Text

/-! ## Lines at their places -/

/-- What stands behind a line: a newline, the pair of a carriage return and a newline, or the end of the
text. A carriage return in front of a newline does not belong to the line, and there is no empty line at
the end of a text. -/
inductive LineEnd (line : List Char) : List Char → List Char → Prop
  | newline {rest} : line.getLast? ≠ some '\r' → LineEnd line ['\n'] rest
  | pair {rest} : LineEnd line ['\r', '\n'] rest
  | nothing : line ≠ [] → LineEnd line [] []

/-- A line can begin behind these characters. -/
def Terminated (cs : List Char) : Prop := ∀ c ∈ cs.getLast?, c = '\n'

/-- The line of the text with this number, where the first line has number one. -/
def IsLine (text : String) (number : Nat) (line : String) : Prop :=
  ∃ before ending rest, text.toList = before ++ (line.toList ++ ending ++ rest) ∧
    Terminated before ∧ number = before.count '\n' + 1 ∧
    '\n' ∉ line.toList ∧ LineEnd line.toList ending rest

/-- The text with a carriage return put in front of every newline. -/
def pairNewlines (text : String) : String :=
  String.ofList (text.toList.flatMap fun c => if c = '\n' then ['\r', '\n'] else [c])

/-! ## Line by line -/

section
variable {line ending rest : List Char}

theorem linesOfChars_cons_of_ne {c : Char} (hc : c ≠ '\n') {cs : List Char}
    (hcs : c = '\r' → cs.head? ≠ some '\n') : linesOfChars (c :: cs) = consLine c (linesOfChars cs) :=
  linesOfChars.eq_4 c cs hc fun cs' hreturn heq => hcs hreturn (by rw [heq]; rfl)

/-- The characters of a line go in front of what stands behind them, as long as no carriage return is left
in front of a newline. -/
theorem linesOfChars_append_tail {tail : List Char} (h : '\n' ∉ line)
    (hlast : line.getLast? = some '\r' → tail.head? ≠ some '\n') :
    linesOfChars (line ++ tail) = line.foldr consLine (linesOfChars tail) := by
  induction line with
  | nil => rfl
  | cons c line ih =>
    obtain ⟨hc, hline⟩ := List.ne_and_not_mem_of_not_mem_cons h
    have hnext : c = '\r' → (line ++ tail).head? ≠ some '\n' := by
      rintro rfl
      cases line with
      | nil => exact hlast rfl
      | cons d line => simpa [eq_comm] using (List.ne_and_not_mem_of_not_mem_cons hline).1
    have hlast' : line.getLast? = some '\r' → tail.head? ≠ some '\n' := by
      cases line with
      | nil => nofun
      | cons d line => simpa using hlast
    rw [List.cons_append, linesOfChars_cons_of_ne hc.symm hnext, ih hline hlast', List.foldr_cons]

theorem foldr_consLine (line : List Char) (rows : List (List Char)) :
    line.foldr consLine ([] :: rows) = line :: rows := by
  induction line with
  | nil => rfl
  | cons c line ih => rw [List.foldr_cons, ih, consLine]

/-- **A line is cut off together with its end.** -/
theorem linesOfChars_append (h : '\n' ∉ line) (hend : LineEnd line ending rest) :
    linesOfChars (line ++ ending ++ rest) = line :: linesOfChars rest := by
  cases hend with
  | nothing hne =>
    rw [List.append_nil, List.append_nil, linesOfChars_of_newline_not_mem h hne]
    rfl
  | newline hlast =>
    rw [List.append_assoc, linesOfChars_append_tail h fun hreturn => absurd hreturn hlast]
    exact foldr_consLine line _
  | pair =>
    have hreturn : (['\r', '\n'] ++ rest).head? ≠ some '\n' := by simp
    rw [List.append_assoc, linesOfChars_append_tail h fun _ => hreturn]
    exact foldr_consLine line _

/-- Every text that is not empty begins with a line. -/
theorem exists_line_append {cs : List Char} (hne : cs ≠ []) :
    ∃ line ending rest, cs = line ++ ending ++ rest ∧ '\n' ∉ line ∧ LineEnd line ending rest := by
  by_cases hnewline : '\n' ∈ cs
  · obtain ⟨row, rest, rfl, hrow⟩ := List.eq_append_cons_of_mem hnewline
    by_cases hreturn : row.getLast? = some '\r'
    · obtain ⟨line, rfl⟩ := List.getLast?_eq_some_iff.mp hreturn
      exact ⟨line, ['\r', '\n'], rest, by simp, fun hmem => hrow (by simp [hmem]), .pair⟩
    · exact ⟨row, ['\n'], rest, by simp, hrow, .newline hreturn⟩
  · exact ⟨cs, [], [], by simp, hnewline, .nothing hne⟩

theorem length_lt_of_lineEnd (hend : LineEnd line ending rest) :
    rest.length < (line ++ ending ++ rest).length := by
  cases hend with
  | newline _ | pair =>
    simp
    omega
  | nothing hne => simpa using List.length_pos_iff.mpr hne

/-- Induction along the lines of a text. -/
theorem line_induction {P : List Char → Prop} (nil : P [])
    (line : ∀ {line ending rest}, '\n' ∉ line → LineEnd line ending rest → P rest →
      P (line ++ ending ++ rest)) (cs : List Char) : P cs := by
  by_cases hne : cs = []
  · exact hne ▸ nil
  · obtain ⟨first, ending, rest, hcs, hfirst, hend⟩ := exists_line_append hne
    have hlt := length_lt_of_lineEnd hend
    rw [← hcs] at hlt
    rw [hcs]
    exact line hfirst hend (line_induction nil line rest)
termination_by cs.length

end

/-- What is left of terminated text behind a line is terminated, and the line has a newline. -/
theorem Terminated.lineEnd {line ending rest : List Char} (hline : '\n' ∉ line)
    (hend : LineEnd line ending rest) (h : Terminated (line ++ ending ++ rest)) :
    Terminated rest ∧ ending.count '\n' = 1 ∧ ∀ rest', LineEnd line ending rest' := by
  have hrest : Terminated rest := by
    intro c hc
    exact h c (by simp [Option.mem_def.mp hc])
  cases hend with
  | newline hlast => exact ⟨hrest, rfl, fun _ => .newline hlast⟩
  | pair => exact ⟨hrest, rfl, fun _ => .pair⟩
  | nothing hne =>
    obtain ⟨c, hc⟩ := Option.isSome_iff_exists.mp (List.getLast?_isSome.mpr hne)
    obtain rfl := h c (by simpa using hc)
    exact absurd (List.mem_of_getLast? hc) hline

/-- The lines of terminated text go with the lines of the text behind it. -/
theorem linesOfChars_terminated_append (before cs : List Char) (h : Terminated before) :
    linesOfChars (before ++ cs) = linesOfChars before ++ linesOfChars cs ∧
      (linesOfChars before).length = before.count '\n' := by
  induction before using line_induction with
  | nil => exact ⟨rfl, rfl⟩
  | @line line ending rest hline hend ih =>
    obtain ⟨hrest, hcount, hany⟩ := h.lineEnd hline hend
    obtain ⟨hlines, hlength⟩ := ih hrest
    rw [List.append_assoc _ rest, linesOfChars_append hline (hany _), linesOfChars_append hline hend,
      hlines, List.length_cons, hlength, List.count_append, List.count_append, hcount,
      List.count_eq_zero.mpr hline]
    exact ⟨rfl, by omega⟩

theorem Terminated.append {cs ds : List Char} (hcs : Terminated cs) (hds : Terminated ds) :
    Terminated (cs ++ ds) := by
  intro c hc
  rw [List.getLast?_append, Option.mem_def, Option.or_eq_some_iff] at hc
  rcases hc with hc | ⟨-, hc⟩
  · exact hds c hc
  · exact hcs c hc

/-- Text behind a line is behind a newline. -/
theorem LineEnd.terminated {line ending rest : List Char} (hend : LineEnd line ending rest)
    (hne : rest ≠ []) : Terminated (line ++ ending) ∧ ending.count '\n' = 1 := by
  cases hend with
  | newline _ | pair => exact ⟨by simp [Terminated], rfl⟩
  | nothing _ => exact absurd rfl hne

/-! ## Numbers of lines -/

theorem getElem?_linesOfChars_append {before line ending rest : List Char} (h : Terminated before)
    (hline : '\n' ∉ line) (hend : LineEnd line ending rest) :
    (linesOfChars (before ++ (line ++ ending ++ rest)))[before.count '\n']? = some line := by
  obtain ⟨hlines, hlength⟩ := linesOfChars_terminated_append before (line ++ ending ++ rest) h
  rw [hlines, ← hlength, List.getElem?_append_right (Nat.le_refl _), Nat.sub_self,
    linesOfChars_append hline hend]
  rfl

theorem exists_of_getElem?_linesOfChars {cs line : List Char} {i : Nat}
    (h : (linesOfChars cs)[i]? = some line) :
    ∃ before ending rest, cs = before ++ (line ++ ending ++ rest) ∧ Terminated before ∧
      i = before.count '\n' ∧ '\n' ∉ line ∧ LineEnd line ending rest := by
  induction cs using line_induction generalizing i with
  | nil => simp [linesOfChars] at h
  | @line first ending rest hfirst hend ih =>
    rw [linesOfChars_append hfirst hend] at h
    cases i with
    | zero =>
      obtain rfl : first = line := by simpa using h
      exact ⟨[], ending, rest, rfl, by simp [Terminated], rfl, hfirst, hend⟩
    | succ i =>
      rw [List.getElem?_cons_succ] at h
      have hne : rest ≠ [] := by
        rintro rfl
        simp [linesOfChars] at h
      obtain ⟨hfront, hcount⟩ := hend.terminated hne
      obtain ⟨before, ending', rest', rfl, hbefore, rfl, hline, hend'⟩ := ih h
      refine ⟨first ++ ending ++ before, ending', rest', by simp, hfront.append hbefore, ?_, hline,
        hend'⟩
      rw [List.count_append, List.count_append, hcount, List.count_eq_zero.mpr hfirst]
      omega

/-- **The numbered lines of a text are the lines that stand in it.** -/
theorem mem_zipIdx_lines_iff {text line : String} {number : Nat} :
    (line, number) ∈ (lines text).zipIdx 1 ↔ IsLine text number line := by
  have hchars : (lines text)[number - 1]? = some line ↔
      (linesOfChars text.toList)[number - 1]? = some line.toList := by
    rw [lines, List.getElem?_map, Option.map_eq_some_iff]
    constructor
    · rintro ⟨cs, hcs, rfl⟩
      rw [hcs, String.toList_ofList]
    · intro h
      exact ⟨_, h, String.ofList_toList⟩
  rw [List.mk_mem_zipIdx_iff_le_and_getElem?_sub, hchars]
  constructor
  · rintro ⟨hle, h⟩
    obtain ⟨before, ending, rest, htext, hbefore, hnumber, hline, hend⟩ :=
      exists_of_getElem?_linesOfChars h
    exact ⟨before, ending, rest, htext, hbefore, by omega, hline, hend⟩
  · rintro ⟨before, ending, rest, htext, hbefore, rfl, hline, hend⟩
    refine ⟨by omega, ?_⟩
    rw [htext, Nat.add_sub_cancel]
    exact getElem?_linesOfChars_append hbefore hline hend

/-! ## Texts one behind the other -/

/-- A newline behind a text that does not end with a carriage return ends its last line, or is an empty
line. -/
theorem linesOfChars_append_newline {cs : List Char} (h : cs.getLast? ≠ some '\r') :
    ∃ blank, (blank = [] ∨ blank = [[]]) ∧
      linesOfChars (cs ++ ['\n']) = linesOfChars cs ++ blank := by
  induction cs using line_induction with
  | nil => exact ⟨[[]], .inr rfl, rfl⟩
  | @line line ending rest hline hend ih =>
    have hrest : rest.getLast? ≠ some '\r' := fun hlast => h (by simp [hlast])
    rw [linesOfChars_append hline hend, List.append_assoc _ rest]
    cases hend with
    | newline hlast =>
      obtain ⟨blank, hblank, hlines⟩ := ih hrest
      exact ⟨blank, hblank, by rw [linesOfChars_append hline (.newline hlast), hlines]; rfl⟩
    | pair =>
      obtain ⟨blank, hblank, hlines⟩ := ih hrest
      exact ⟨blank, hblank, by rw [linesOfChars_append hline .pair, hlines]; rfl⟩
    | nothing hne =>
      have hlast : line.getLast? ≠ some '\r' := by simpa using h
      refine ⟨[], .inl rfl, ?_⟩
      have hlines : linesOfChars (line ++ ['\n'] ++ []) = line :: linesOfChars [] :=
        linesOfChars_append hline (.newline hlast)
      rw [List.append_nil] at hlines
      rw [List.append_nil, List.nil_append, hlines, List.append_nil]

/-- **The lines of two texts with a newline between them** are the lines of the first, an empty one if
there was nothing for the newline to end, and the lines of the second. -/
theorem lines_append_newline (a b : String) (h : a.toList.getLast? ≠ some '\r') :
    ∃ blank, (blank = [] ∨ blank = [""]) ∧
      lines (a ++ "\n" ++ b) = lines a ++ blank ++ lines b ∧
      (lines a ++ blank).length = a.toList.count '\n' + 1 := by
  obtain ⟨blank, hblank, hlines⟩ := linesOfChars_append_newline h
  have hterminated : Terminated (a.toList ++ ['\n']) := by simp [Terminated]
  obtain ⟨happend, hlength⟩ := linesOfChars_terminated_append _ b.toList hterminated
  have htext : (a ++ "\n" ++ b).toList = a.toList ++ ['\n'] ++ b.toList := by simp
  refine ⟨blank.map String.ofList, ?_, ?_, ?_⟩
  · rcases hblank with rfl | rfl
    · exact .inl rfl
    · exact .inr rfl
  · rw [lines, htext, happend, hlines, List.map_append, List.map_append]
    rfl
  · rw [hlines] at hlength
    rw [lines, ← List.map_append, List.length_map, hlength, List.count_append]
    rfl

/-! ## Carriage returns -/

theorem linesOfChars_pairNewlines {cs : List Char} (h : '\r' ∉ cs) :
    linesOfChars (cs.flatMap fun c => if c = '\n' then ['\r', '\n'] else [c]) = linesOfChars cs := by
  induction cs with
  | nil => rfl
  | cons c cs ih =>
    obtain ⟨hc, hcs⟩ := List.ne_and_not_mem_of_not_mem_cons h
    by_cases hnewline : c = '\n'
    · subst hnewline
      simp [linesOfChars, ih hcs]
    · have hany (ds : List Char) : linesOfChars (c :: ds) = consLine c (linesOfChars ds) :=
        linesOfChars_cons_of_ne hnewline fun hreturn => absurd hreturn.symm hc
      rw [List.flatMap_cons, if_neg hnewline, List.singleton_append, hany, hany, ih hcs]

/-- **Carriage returns in front of the newlines belong to no line.** -/
theorem lines_pairNewlines (text : String) (h : '\r' ∉ text.toList) :
    lines (pairNewlines text) = lines text := by
  rw [lines, pairNewlines, String.toList_ofList, linesOfChars_pairNewlines h, lines]

/-! ## Blank lines -/

/-- A text is blank exactly if trimming leaves nothing of it. -/
theorem isBlank_iff_trim_eq (text : String) : isBlank text = true ↔ trim text = "" := by
  rw [isBlank, trim, trimChars, dropTrailing, ← String.ofList_nil, String.ofList_inj,
    List.reverse_eq_nil_iff, List.all_eq_true, ← List.dropWhile_eq_nil_iff]
  constructor
  · intro h
    rw [h]
    rfl
  · intro h
    -- Trimmed at the front, the text would begin with a character that is no white space.
    rw [List.dropWhile_eq_nil_iff] at h
    cases hfront : text.toList.dropWhile isWhiteSpace with
    | nil => rfl
    | cons c cs =>
      have hspace : isWhiteSpace c = true := h c (by simp [hfront])
      have hnot := List.head?_dropWhile_not isWhiteSpace text.toList
      simp [hfront, hspace] at hnot

end Text

end InfixCalc
