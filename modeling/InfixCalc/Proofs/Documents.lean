import InfixCalc.Json.Reading
import Mathlib.Data.List.DropRight
/-!
# Reading back a document

Reading undoes writing. The two layouts differ in the white space between the parts of a document, and
no such white space makes a difference to the reader.

Main statements: `Json.value?_write`, and from it `Json.ofText?_compact` and `Json.ofText?_indented`.
-/

namespace InfixCalc

namespace Json

/-! ## White space -/

section
variable {bs : List Char} {fuel : Nat}

theorem skipBlanks_append (h : ∀ c ∈ bs, isBlank c = true) (cs : List Char) :
    skipBlanks (bs ++ cs) = skipBlanks cs :=
  List.dropWhile_append_of_pos h

theorem skipBlanks_cons {c : Char} (h : isBlank c = false) (cs : List Char) :
    skipBlanks (c :: cs) = c :: cs :=
  List.dropWhile_cons_of_neg (by simp [h])

@[simp] theorem skipBlanks_skipBlanks (cs : List Char) :
    skipBlanks (skipBlanks cs) = skipBlanks cs :=
  List.dropWhile_idempotent isBlank cs

/-- White space in front of a value is passed over. -/
theorem value?_skipBlanks (cs : List Char) : value? fuel (skipBlanks cs) = value? fuel cs := by
  cases fuel <;> simp [value?]

theorem elements?_skipBlanks (cs : List Char) :
    elements? fuel (skipBlanks cs) = elements? fuel cs := by
  cases fuel <;> simp [elements?, value?_skipBlanks]

theorem members?_skipBlanks (cs : List Char) : members? fuel (skipBlanks cs) = members? fuel cs := by
  cases fuel <;> simp [members?]

theorem value?_append (h : ∀ c ∈ bs, isBlank c = true) (cs : List Char) :
    value? fuel (bs ++ cs) = value? fuel cs := by
  rw [← value?_skipBlanks, skipBlanks_append h, value?_skipBlanks]

end

/-! ## Numbers and strings -/

/-- A number does not end in front of this character. -/
def continuesNumber (c : Char) : Bool := c.isDigit || ".eE".toList.contains c

/-- A number ends in front of these characters. -/
def Delimits (cs : List Char) : Prop := ∀ c ∈ cs.head?, continuesNumber c = false

/-- The spelling is read as a number, whatever it stands in front of. -/
def IsNumeral (spelling : List Char) : Prop :=
  ∀ rest, Delimits rest → number? (spelling ++ rest) = some (spelling, rest)

/-- The spelling is read as a string up to the quotation mark behind it. -/
def IsQuotable (spelling : List Char) : Prop :=
  ∀ rest, string? (spelling ++ '"' :: rest) = some (spelling, rest)

theorem delimits_nil : Delimits [] := by
  intro c h
  cases h

theorem delimits_cons {c : Char} (h : continuesNumber c = false) (cs : List Char) :
    Delimits (c :: cs) := by
  intro c' hc'
  cases hc'
  exact h

theorem Delimits.isDigit_eq_false {cs : List Char} (h : Delimits cs) :
    ∀ c ∈ cs.head?, c.isDigit = false := by
  intro c hc
  exact (Bool.or_eq_false_iff.mp (h c hc)).1

/-- White space ends a number as well. -/
theorem delimits_append {bs cs : List Char} (hbs : ∀ c ∈ bs, isBlank c = true) (hcs : Delimits cs) :
    Delimits (bs ++ cs) := by
  rcases bs with _ | ⟨b, bs⟩
  · exact hcs
  · have hb := hbs b List.mem_cons_self
    refine delimits_cons ?_ _
    simp only [isBlank, Bool.or_eq_true, beq_iff_eq] at hb
    rcases hb with ((rfl | rfl) | rfl) | rfl <;> rfl

/-- A number begins with a sign or a digit. -/
def beginsNumber (c : Char) : Bool := c == '-' || c.isDigit

theorem beginsNumber_of_number? {c : Char} {cs : List Char} {result : List Char × List Char}
    (h : number? (c :: cs) = some result) : beginsNumber c = true := by
  by_contra hc
  have hother : c ≠ '-' ∧ ¬ c.isDigit = true := by simpa [beginsNumber] using hc
  obtain ⟨hsign, hdigit⟩ := hother
  have hnone : digits? (c :: cs) = none := by
    rw [digits?, List.takeWhile_cons_of_neg hdigit]
  have hwhole : sign (c :: cs) = ([], c :: cs) := by
    unfold sign
    split
    · rename_i heq
      exact absurd (List.cons.inj heq).1 hsign
    · rfl
  simp [number?, hwhole, whole?, hnone] at h

/-- Letters stand for themselves. -/
theorem isQuotable_of_isAlpha {spelling : List Char} (h : spelling.all Char.isAlpha = true) :
    IsQuotable spelling := by
  intro rest
  induction spelling with
  | nil => rfl
  | cons c cs ih =>
    obtain ⟨hc, hcs⟩ := Bool.and_eq_true_iff.mp h
    have hrest := ih hcs
    have hquote : c ≠ '"' := by
      rintro rfl
      cases hc
    have hslash : c ≠ '\\' := by
      rintro rfl
      cases hc
    have hcontrol : ¬ c < ' ' := by
      intro hlt
      have hlt : c.val.toNat < 32 := hlt
      have hc : 65 ≤ c.val.toNat ∧ c.val.toNat ≤ 90 ∨ 97 ≤ c.val.toNat ∧ c.val.toNat ≤ 122 := by
        delta Char.isAlpha Char.isUpper Char.isLower at hc
        simpa [UInt32.le_iff_toNat_le] using hc
      omega
    rw [List.cons_append, string?, hrest]
    · simp [hslash, hcontrol]
    all_goals intros; simp_all

/-! ## Layouts -/

/-- The white space between the parts of a document. -/
structure Layout where
  /-- What stands in front of an element or member, or of a closing bracket, at a nesting level. -/
  lineBreak : Nat → List Char
  /-- What stands between a colon and a value. -/
  gap : List Char
  blank_lineBreak : ∀ level, ∀ c ∈ lineBreak level, isBlank c = true
  blank_gap : ∀ c ∈ gap, isBlank c = true

section
variable (layout : Layout)

mutual

def write (level : Nat) : Json → List Char
  | null => "null".toList
  | bool value => (if value then "true" else "false").toList
  | number spelling => spelling
  | string spelling => quote spelling
  | array .nil => ['[', ']']
  | array (.cons head tail) =>
    '[' :: writeElements (level + 1) (.cons head tail) ++ layout.lineBreak level ++ [']']
  | object .nil => ['\x7b', '\x7d']
  | object (.cons key value tail) =>
    '\x7b' :: writeMembers (level + 1) (.cons key value tail) ++ layout.lineBreak level ++ ['\x7d']

def writeElements (level : Nat) : JsonElements → List Char
  | .nil => []
  | .cons head .nil => layout.lineBreak level ++ write level head
  | .cons head tail =>
    layout.lineBreak level ++ write level head ++ ',' :: writeElements level tail

def writeMembers (level : Nat) : JsonMembers → List Char
  | .nil => []
  | .cons key value .nil =>
    layout.lineBreak level ++ quote key ++ ':' :: (layout.gap ++ write level value)
  | .cons key value tail =>
    layout.lineBreak level ++ quote key ++ ':' :: (layout.gap ++ write level value) ++
      ',' :: writeMembers level tail

end

end

/-- No white space. -/
def Layout.compact : Layout where
  lineBreak _ := []
  gap := []
  blank_lineBreak _ _ h := by cases h
  blank_gap _ h := by cases h

/-- A line for each element or member. -/
def Layout.indented : Layout where
  lineBreak := newline
  gap := [' ']
  blank_lineBreak _ c h := by
    rcases List.mem_cons.mp h with rfl | h
    · rfl
    · rw [List.eq_of_mem_replicate h]
      rfl
  blank_gap c h := by
    rw [List.mem_singleton.mp h]
    rfl

mutual

theorem write_compact (level : Nat) : ∀ d : Json, d.write .compact level = d.compactChars
  | null | bool _ | number _ | string _ | array .nil | object .nil => rfl
  | array (.cons head tail) => by
    rw [write, writeElements_compact]
    show '[' :: compactElements (.cons head tail) ++ [] ++ [']'] = _
    rw [List.append_nil]
    rfl
  | object (.cons key value tail) => by
    rw [write, writeMembers_compact]
    show '\x7b' :: compactMembers (.cons key value tail) ++ [] ++ ['\x7d'] = _
    rw [List.append_nil]
    rfl

theorem writeElements_compact (level : Nat) :
    ∀ elements, writeElements .compact level elements = compactElements elements
  | .nil => rfl
  | .cons head .nil => write_compact level head
  | .cons head (.cons next tail) => by
    show write .compact level head ++ ',' :: writeElements .compact level (.cons next tail) = _
    rw [write_compact, writeElements_compact]
    rfl

theorem writeMembers_compact (level : Nat) :
    ∀ members, writeMembers .compact level members = compactMembers members
  | .nil => rfl
  | .cons key value .nil => by
    show quote key ++ ':' :: write .compact level value = _
    rw [write_compact]
    rfl
  | .cons key value (.cons key' next tail) => by
    show quote key ++ ':' :: write .compact level value ++
      ',' :: writeMembers .compact level (.cons key' next tail) = _
    rw [write_compact, writeMembers_compact]
    rfl

end

mutual

theorem write_indented (level : Nat) : ∀ d : Json, d.write .indented level = d.indentedChars level
  | null | bool _ | number _ | string _ | array .nil | object .nil => rfl
  | array (.cons head tail) => by
    rw [write, writeElements_indented]
    rfl
  | object (.cons key value tail) => by
    rw [write, writeMembers_indented]
    rfl

theorem writeElements_indented (level : Nat) :
    ∀ elements, writeElements .indented level elements = indentedElements level elements
  | .nil => rfl
  | .cons head .nil => by
    rw [writeElements, write_indented]
    rfl
  | .cons head (.cons next tail) => by
    show newline level ++ write .indented level head ++
      ',' :: writeElements .indented level (.cons next tail) = _
    rw [write_indented, writeElements_indented]
    rfl

theorem writeMembers_indented (level : Nat) :
    ∀ members, writeMembers .indented level members = indentedMembers level members
  | .nil => rfl
  | .cons key value .nil => by
    show newline level ++ quote key ++ ':' :: ' ' :: write .indented level value = _
    rw [write_indented]
    rfl
  | .cons key value (.cons key' next tail) => by
    show newline level ++ quote key ++ ':' :: ' ' :: write .indented level value ++
      ',' :: writeMembers .indented level (.cons key' next tail) = _
    rw [write_indented, writeMembers_indented]
    rfl

end

/-! ## Reading a value -/

section
variable {fuel : Nat} {spelling cs rest : List Char}

theorem value?_string (h : string? cs = some (spelling, rest)) :
    value? (fuel + 1) ('"' :: cs) = some (.string spelling, rest) := by
  show (string? cs).map _ = _
  rw [h]
  rfl

theorem value?_number (h : number? cs = some (spelling, rest)) :
    value? (fuel + 1) cs = some (.number spelling, rest) := by
  rcases cs with _ | ⟨c, cs⟩
  · cases h
  have hbegins := beginsNumber_of_number? h
  have hne : ∀ {d : Char}, beginsNumber d = false → c ≠ d := by
    rintro d hd rfl
    cases hd.symm.trans hbegins
  have hblank : isBlank c = false := by
    simp only [isBlank, beq_eq_false_iff_ne, Bool.or_eq_false_iff]
    exact ⟨⟨⟨hne rfl, hne rfl⟩, hne rfl⟩, hne rfl⟩
  have hn : c ≠ 'n' := hne rfl
  have ht : c ≠ 't' := hne rfl
  have hf : c ≠ 'f' := hne rfl
  rw [value?, skipBlanks_cons hblank]
  split <;> rename_i heq
  · cases heq
  · exact absurd (List.cons.inj heq).1 (hne rfl)
  · exact absurd (List.cons.inj heq).1 (hne rfl)
  · exact absurd (List.cons.inj heq).1 (hne rfl)
  · obtain ⟨rfl, rfl⟩ := List.cons.inj heq
    simp only [hn, ht, hf, if_false, h, Option.map_some]

/-- No value begins with a closing bracket. -/
theorem elements?_bracket (cs : List Char) : elements? fuel (']' :: cs) = none := by
  rcases fuel with _ | _ | fuel <;> rfl

theorem value?_array {elements : JsonElements} (h : elements? fuel cs = some (elements, rest)) :
    value? (fuel + 1) ('[' :: cs) = some (.array elements, rest) := by
  have hbracket : skipBlanks ('[' :: cs) = '[' :: cs := skipBlanks_cons rfl cs
  simp only [value?, hbracket]
  split
  · rename_i heq
    rw [← elements?_skipBlanks, heq, elements?_bracket] at h
    cases h
  · rw [elements?_skipBlanks, h]
    rfl

theorem members?_brace (cs : List Char) : members? fuel ('\x7d' :: cs) = none := by
  cases fuel <;> rfl

theorem value?_object {members : JsonMembers} (h : members? fuel cs = some (members, rest)) :
    value? (fuel + 1) ('\x7b' :: cs) = some (.object members, rest) := by
  have hbrace : skipBlanks ('\x7b' :: cs) = '\x7b' :: cs := skipBlanks_cons rfl cs
  simp only [value?, hbrace]
  split
  · rename_i heq
    rw [← members?_skipBlanks, heq, members?_brace] at h
    cases h
  · rw [members?_skipBlanks, h]
    rfl

/-! ## Reading elements and members -/

variable {bs : List Char} {head : Json}

/-- The last element stands in front of the closing bracket. -/
theorem elements?_last (h : value? fuel cs = some (head, bs ++ ']' :: rest))
    (hbs : ∀ c ∈ bs, isBlank c = true) :
    elements? (fuel + 1) cs = some (.cons head .nil, rest) := by
  rw [elements?, h]
  dsimp only
  rw [skipBlanks_append hbs, skipBlanks_cons rfl]
  rfl

theorem elements?_cons {more : List Char} {tail : JsonElements}
    (h : value? fuel cs = some (head, ',' :: more)) (htail : elements? fuel more = some (tail, rest)) :
    elements? (fuel + 1) cs = some (.cons head tail, rest) := by
  rw [elements?, h]
  show (elements? fuel more).map _ = _
  rw [htail]
  rfl

variable {key : List Char}

theorem quote_append_colon (key cs : List Char) :
    quote key ++ ':' :: cs = '"' :: (key ++ '"' :: ':' :: cs) := by
  simp [quote]

/-- A key and a colon stand in front of the value of a member. -/
theorem members?_last (hkey : IsQuotable key) (hblank : ∀ c ∈ bs, isBlank c = true)
    {bs' : List Char} (h : value? fuel cs = some (head, bs' ++ '\x7d' :: rest))
    (hbs' : ∀ c ∈ bs', isBlank c = true) :
    members? (fuel + 1) (bs ++ (quote key ++ ':' :: cs)) = some (.cons key head .nil, rest) := by
  simp [members?, skipBlanks_append hblank, quote_append_colon, skipBlanks_cons, isBlank,
    hkey (':' :: cs), h, skipBlanks_append hbs']

theorem members?_cons (hkey : IsQuotable key) (hblank : ∀ c ∈ bs, isBlank c = true)
    {more : List Char} {tail : JsonMembers} (h : value? fuel cs = some (head, ',' :: more))
    (htail : members? fuel more = some (tail, rest)) :
    members? (fuel + 1) (bs ++ (quote key ++ ':' :: cs)) = some (.cons key head tail, rest) := by
  simp [members?, skipBlanks_append hblank, quote_append_colon, skipBlanks_cons, isBlank,
    hkey (':' :: cs), h, htail]

end

/-! ## Reading what is written -/

mutual

/-- Every number is a numeral, and every string and key can be quoted. -/
def IsSpelled : Json → Prop
  | null | bool _ => True
  | number spelling => IsNumeral spelling
  | string spelling => IsQuotable spelling
  | array elements => ElementsSpelled elements
  | object members => MembersSpelled members

def ElementsSpelled : JsonElements → Prop
  | .nil => True
  | .cons head tail => head.IsSpelled ∧ ElementsSpelled tail

def MembersSpelled : JsonMembers → Prop
  | .nil => True
  | .cons key value tail => IsQuotable key ∧ value.IsSpelled ∧ MembersSpelled tail

end

section
variable (layout : Layout)

mutual

/-- **Reading undoes writing.** A level of descent goes with each character at most. -/
theorem value?_write : ∀ (d : Json) (level fuel : Nat) (rest : List Char), d.IsSpelled →
    Delimits rest → (d.write layout level).length < fuel →
    value? fuel (d.write layout level ++ rest) = some (d, rest)
  | null, _, fuel + 1, _, _, _, _ => rfl
  | bool true, _, fuel + 1, _, _, _, _ => rfl
  | bool false, _, fuel + 1, _, _, _, _ => rfl
  | number spelling, _, fuel + 1, rest, hspelled, hrest, _ => value?_number (hspelled rest hrest)
  | string spelling, level, fuel + 1, rest, hspelled, _, _ => by
    have htext : (string spelling).write layout level ++ rest = '"' :: (spelling ++ '"' :: rest) := by
      simp [write, quote]
    rw [htext]
    exact value?_string (hspelled rest)
  | array .nil, _, fuel + 1, _, _, _, _ => rfl
  | array (.cons head tail), level, fuel, rest, hspelled, _, hfuel => by
    have htext : (array (.cons head tail)).write layout level ++ rest =
        '[' :: (writeElements layout (level + 1) (.cons head tail) ++
          (layout.lineBreak level ++ ']' :: rest)) := by
      simp [write]
    simp only [write, List.length_cons, List.length_append] at hfuel
    obtain ⟨fuel, rfl⟩ : ∃ f, fuel = f + 2 := ⟨fuel - 2, by omega⟩
    rw [htext]
    exact value?_array (elements?_write (.cons head tail) (level + 1) fuel _ rest nofun hspelled
      (layout.blank_lineBreak level) (by omega))
  | object .nil, _, fuel + 1, _, _, _, _ => rfl
  | object (.cons key value tail), level, fuel, rest, hspelled, _, hfuel => by
    have htext : (object (.cons key value tail)).write layout level ++ rest =
        '\x7b' :: (writeMembers layout (level + 1) (.cons key value tail) ++
          (layout.lineBreak level ++ '\x7d' :: rest)) := by
      simp [write]
    simp only [write, List.length_cons, List.length_append] at hfuel
    obtain ⟨fuel, rfl⟩ : ∃ f, fuel = f + 2 := ⟨fuel - 2, by omega⟩
    rw [htext]
    exact value?_object (members?_write (.cons key value tail) (level + 1) fuel _ rest nofun hspelled
      (layout.blank_lineBreak level) (by omega))

theorem elements?_write : ∀ (elements : JsonElements) (level fuel : Nat) (bs rest : List Char),
    elements ≠ .nil → ElementsSpelled elements → (∀ c ∈ bs, isBlank c = true) →
    (writeElements layout level elements).length < fuel →
    elements? (fuel + 1) (writeElements layout level elements ++ (bs ++ ']' :: rest)) =
      some (elements, rest)
  | .nil, _, _, _, _, hne, _, _, _ => absurd rfl hne
  | .cons head .nil, level, fuel, bs, rest, _, hspelled, hbs, hfuel => by
    simp only [writeElements, List.length_append] at hfuel
    have hhead := value?_write head level fuel _ hspelled.1
      (delimits_append hbs (delimits_cons (c := ']') rfl rest)) (by omega)
    rw [← value?_append (layout.blank_lineBreak level)] at hhead
    rw [writeElements, List.append_assoc]
    exact elements?_last hhead hbs
  | .cons head (.cons next tail), level, fuel, bs, rest, _, hspelled, hbs, hfuel => by
    have htext : writeElements layout level (.cons head (.cons next tail)) =
        layout.lineBreak level ++ write layout level head ++
          ',' :: writeElements layout level (.cons next tail) := rfl
    simp only [htext, List.length_append, List.length_cons] at hfuel
    obtain ⟨fuel, rfl⟩ : ∃ f, fuel = f + 1 := ⟨fuel - 1, by omega⟩
    have htail := elements?_write (.cons next tail) level fuel bs rest nofun hspelled.2 hbs (by omega)
    have hhead := value?_write head level (fuel + 1)
      (',' :: (writeElements layout level (.cons next tail) ++ (bs ++ ']' :: rest)))
      hspelled.1 (delimits_cons rfl _) (by omega)
    rw [← value?_append (layout.blank_lineBreak level)] at hhead
    rw [htext, List.append_assoc, List.append_assoc]
    exact elements?_cons hhead htail

theorem members?_write : ∀ (members : JsonMembers) (level fuel : Nat) (bs rest : List Char),
    members ≠ .nil → MembersSpelled members → (∀ c ∈ bs, isBlank c = true) →
    (writeMembers layout level members).length < fuel →
    members? (fuel + 1) (writeMembers layout level members ++ (bs ++ '\x7d' :: rest)) =
      some (members, rest)
  | .nil, _, _, _, _, hne, _, _, _ => absurd rfl hne
  | .cons key value .nil, level, fuel, bs, rest, _, hspelled, hbs, hfuel => by
    simp only [writeMembers, List.length_append, List.length_cons] at hfuel
    have hvalue := value?_write value level fuel _ hspelled.2.1
      (delimits_append hbs (delimits_cons (c := '\x7d') rfl rest)) (by omega)
    rw [← value?_append layout.blank_gap] at hvalue
    simp only [writeMembers, List.append_assoc, List.cons_append]
    exact members?_last hspelled.1 (layout.blank_lineBreak level) hvalue hbs
  | .cons key value (.cons key' next tail), level, fuel, bs, rest, _, hspelled, hbs, hfuel => by
    have htext : writeMembers layout level (.cons key value (.cons key' next tail)) =
        layout.lineBreak level ++ quote key ++ ':' :: (layout.gap ++ write layout level value) ++
          ',' :: writeMembers layout level (.cons key' next tail) := rfl
    simp only [htext, List.length_append, List.length_cons] at hfuel
    obtain ⟨fuel, rfl⟩ : ∃ f, fuel = f + 1 := ⟨fuel - 1, by omega⟩
    have htail := members?_write (.cons key' next tail) level fuel bs rest nofun hspelled.2.2 hbs (by omega)
    have hvalue := value?_write value level (fuel + 1)
      (',' :: (writeMembers layout level (.cons key' next tail) ++ (bs ++ '\x7d' :: rest)))
      hspelled.2.1 (delimits_cons rfl _) (by omega)
    rw [← value?_append layout.blank_gap] at hvalue
    simp only [htext, List.append_assoc, List.cons_append]
    exact members?_cons hspelled.1 (layout.blank_lineBreak level) hvalue htail

end

theorem ofText?_write {d : Json} (h : d.IsSpelled) :
    ofText? (String.ofList (d.write layout 0)) = some d := by
  have hread := value?_write layout d 0 _ [] h delimits_nil
    (show (d.write layout 0).length < 2 * (d.write layout 0).length + 2 by omega)
  rw [List.append_nil] at hread
  rw [ofText?, String.toList_ofList, hread]
  rfl

end

variable {d : Json}

theorem ofText?_compact (h : d.IsSpelled) : ofText? d.compact = some d := by
  rw [compact, ← write_compact 0]
  exact ofText?_write .compact h

theorem ofText?_indented (h : d.IsSpelled) : ofText? d.indented = some d := by
  rw [indented, ← write_indented]
  exact ofText?_write .indented h

end Json

end InfixCalc
