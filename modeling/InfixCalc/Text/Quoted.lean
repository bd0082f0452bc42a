import InfixCalc.Text.Unprintable
/-!
# Quoted text

Text shown between quotation marks, with escapes for the marks, the backslash, the usual control
characters and whatever is unprintable.
-/

namespace InfixCalc

namespace Text

/-- The escape by code point, in hexadecimal digits without leading zeros. -/
def codePointEscape (c : Char) : List Char :=
  "\\u\x7b".toList ++ Nat.toDigits 16 c.toNat ++ ['\x7d']

/-- A character between two marks. Of the quotation marks only the one in use is escaped. -/
def escape (mark c : Char) : List Char :=
  if c = mark then ['\\', c]
  else match c with
    | '\x00' => ['\\', '0']
    | '\t' => ['\\', 't']
    | '\n' => ['\\', 'n']
    | '\r' => ['\\', 'r']
    | '\\' => ['\\', '\\']
    | c => if isUnprintable c then codePointEscape c else [c]

def quotedWith (mark : Char) (cs : List Char) : String :=
  String.ofList (mark :: cs.flatMap (escape mark) ++ [mark])

/-- A character in single quotes. -/
def quotedChar (c : Char) : String := quotedWith '\'' [c]

/-- A text in double quotes. -/
def quoted (text : String) : String := quotedWith '"' text.toList

end Text

end InfixCalc
