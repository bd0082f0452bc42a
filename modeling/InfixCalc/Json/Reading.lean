import InfixCalc.Json
/-!
# Reading a JSON document

A recursive descent over the characters. Nothing but white space may stand behind the document.
-/

namespace InfixCalc

namespace Json

def isBlank (c : Char) : Bool := c == ' ' || c == '\n' || c == '\t' || c == '\r'

def skipBlanks (cs : List Char) : List Char := cs.dropWhile isBlank

/-! ## Numbers -/

/-- A nonempty run of digits. -/
def digits? (cs : List Char) : Option (List Char × List Char) :=
  match cs.takeWhile Char.isDigit with
  | [] => none
  | digits => some (digits, cs.dropWhile Char.isDigit)

/-- The whole part of a number: a single zero, or digits that begin with no zero. -/
def whole? (cs : List Char) : Option (List Char × List Char) :=
  match digits? cs with
  | some ('0' :: _ :: _, _) => none
  | result => result

def sign : List Char → List Char × List Char
  | '-' :: cs => (['-'], cs)
  | cs => ([], cs)

/-- A point with digits behind it, or nothing. -/
def fraction? : List Char → Option (List Char × List Char)
  | '.' :: cs => (digits? cs).map fun (digits, rest) => ('.' :: digits, rest)
  | cs => some ([], cs)

/-- An exponent with its letter and sign, or nothing. -/
def exponent? : List Char → Option (List Char × List Char)
  | c :: cs =>
    if c = 'e' ∨ c = 'E' then
      let (sign, rest) := match cs with
        | '+' :: cs => (['+'], cs)
        | '-' :: cs => (['-'], cs)
        | cs => ([], cs)
      (digits? rest).map fun (digits, rest) => (c :: sign ++ digits, rest)
    else some ([], c :: cs)
  | [] => some ([], [])

/-- The spelling of a number and what follows it. -/
def number? (cs : List Char) : Option (List Char × List Char) := do
  let (sign, cs) := sign cs
  let (whole, cs) ← whole? cs
  let (fraction, cs) ← fraction? cs
  let (exponent, cs) ← exponent? cs
  some (sign ++ whole ++ fraction ++ exponent, cs)

/-! ## Strings -/

def isHexDigit (c : Char) : Bool :=
  c.isDigit || ('a' ≤ c && c ≤ 'f') || ('A' ≤ c && c ≤ 'F')

/-- The letters that stand behind a backslash on their own. -/
def isShortEscape (c : Char) : Bool := "\"\\/bfnrt".toList.contains c

/-- The spelling of a string up to its closing quotation mark, and what follows the mark. -/
def string? : List Char → Option (List Char × List Char)
  | [] => none
  | '"' :: cs => some ([], cs)
  | '\\' :: 'u' :: c₁ :: c₂ :: c₃ :: c₄ :: cs =>
    if [c₁, c₂, c₃, c₄].all isHexDigit then
      (string? cs).map fun (spelling, rest) => ('\\' :: 'u' :: c₁ :: c₂ :: c₃ :: c₄ :: spelling, rest)
    else none
  | '\\' :: c :: cs =>
    if isShortEscape c then (string? cs).map fun (spelling, rest) => ('\\' :: c :: spelling, rest)
    else none
  | c :: cs =>
    if c = '\\' ∨ c < ' ' then none
    else (string? cs).map fun (spelling, rest) => (c :: spelling, rest)

def hexValue (c : Char) : Nat :=
  if c.isDigit then c.toNat - '0'.toNat
  else if 'a' ≤ c then c.toNat - 'a'.toNat + 10
  else c.toNat - 'A'.toNat + 10

/-- The 16-bit unit of four hexadecimal digits. -/
def codeUnit (c₁ c₂ c₃ c₄ : Char) : Nat :=
  ((hexValue c₁ * 16 + hexValue c₂) * 16 + hexValue c₃) * 16 + hexValue c₄

def isLeadUnit (unit : Nat) : Bool := 0xd800 ≤ unit && unit < 0xdc00

def isTrailUnit (unit : Nat) : Bool := 0xdc00 ≤ unit && unit < 0xe000

/-- The character that a letter behind a backslash stands for. -/
def shortEscape : Char → Char
  | 'b' => '\x08'
  | 'f' => '\x0c'
  | 'n' => '\n'
  | 'r' => '\r'
  | 't' => '\t'
  | c => c

/-- The text that a spelling stands for. Half a surrogate pair stands for nothing. -/
def unescape? : List Char → Option (List Char)
  | [] => some []
  | '\\' :: 'u' :: c₁ :: c₂ :: c₃ :: c₄ :: cs =>
    let unit := codeUnit c₁ c₂ c₃ c₄
    if isTrailUnit unit then none
    else if isLeadUnit unit then
      match cs with
      | '\\' :: 'u' :: d₁ :: d₂ :: d₃ :: d₄ :: cs =>
        let trail := codeUnit d₁ d₂ d₃ d₄
        if isTrailUnit trail then
          (unescape? cs).map (Char.ofNat ((unit - 0xd800) * 0x400 + (trail - 0xdc00) + 0x10000) :: ·)
        else none
      | _ => none
    else (unescape? cs).map (Char.ofNat unit :: ·)
  | '\\' :: c :: cs => (unescape? cs).map (shortEscape c :: ·)
  | c :: cs => (unescape? cs).map (c :: ·)

/-! ## Documents -/

/-- Takes a fixed word off the front. -/
def word? : List Char → List Char → Option (List Char)
  | [], cs => some cs
  | w :: ws, c :: cs => if w = c then word? ws cs else none
  | _ :: _, [] => none

mutual

/-- One value and what follows it; `fuel` bounds the depth of the descent. -/
def value? : Nat → List Char → Option (Json × List Char)
  | 0, _ => none
  | fuel + 1, cs =>
    match skipBlanks cs with
    | [] => none
    | '"' :: cs => (string? cs).map fun (spelling, rest) => (.string spelling, rest)
    | '[' :: cs => match skipBlanks cs with
      | ']' :: cs => some (.array .nil, cs)
      | cs => (elements? fuel cs).map fun (elements, rest) => (.array elements, rest)
    | '\x7b' :: cs => match skipBlanks cs with
      | '\x7d' :: cs => some (.object .nil, cs)
      | cs => (members? fuel cs).map fun (members, rest) => (.object members, rest)
    | c :: cs =>
      if c = 'n' then (word? "ull".toList cs).map fun rest => (.null, rest)
      else if c = 't' then (word? "rue".toList cs).map fun rest => (.bool true, rest)
      else if c = 'f' then (word? "alse".toList cs).map fun rest => (.bool false, rest)
      else (number? (c :: cs)).map fun (spelling, rest) => (.number spelling, rest)

/-- One or more elements up to the closing bracket, and what follows it. -/
def elements? : Nat → List Char → Option (JsonElements × List Char)
  | 0, _ => none
  | fuel + 1, cs => match value? fuel cs with
    | none => none
    | some (head, cs) => match skipBlanks cs with
      | ']' :: cs => some (.cons head .nil, cs)
      | ',' :: cs => (elements? fuel cs).map fun (tail, rest) => (.cons head tail, rest)
      | _ => none

/-- One or more members up to the closing brace, and what follows it. -/
def members? : Nat → List Char → Option (JsonMembers × List Char)
  | 0, _ => none
  | fuel + 1, cs => match skipBlanks cs with
    | '"' :: cs => match string? cs with
      | none => none
      | some (key, cs) => match skipBlanks cs with
        | ':' :: cs => match value? fuel cs with
          | none => none
          | some (value, cs) => match skipBlanks cs with
            | '\x7d' :: cs => some (.cons key value .nil, cs)
            | ',' :: cs => (members? fuel cs).map fun (tail, rest) => (.cons key value tail, rest)
            | _ => none
        | _ => none
    | _ => none

end

/-- The document of a text. Two steps of descent go with each character at most. -/
def ofText? (text : String) : Option Json :=
  match value? (2 * text.toList.length + 2) text.toList with
  | some (document, rest) => if skipBlanks rest = [] then some document else none
  | none => none

end Json

end InfixCalc
