/-!
# JSON documents

A document keeps its numbers and strings as they are spelled; what they mean is asked for only where
it matters. This module holds the type and the two layouts in which a document is written.
-/

namespace InfixCalc

mutual

inductive Json where
  | null
  | bool (value : Bool)
  | number (spelling : List Char)
  /-- What stands between the quotation marks, escapes included. -/
  | string (spelling : List Char)
  | array (elements : JsonElements)
  | object (members : JsonMembers)

inductive JsonElements where
  | nil
  | cons (head : Json) (tail : JsonElements)

inductive JsonMembers where
  | nil
  | cons (key : List Char) (value : Json) (tail : JsonMembers)

end

namespace JsonElements

def toList : JsonElements → List Json
  | nil => []
  | cons head tail => head :: tail.toList

end JsonElements

namespace JsonMembers

def toList : JsonMembers → List (List Char × Json)
  | nil => []
  | cons key value tail => (key, value) :: tail.toList

/-- The members with the given keys and values, in this order. -/
def ofList : List (String × Json) → JsonMembers
  | [] => nil
  | (key, value) :: rest => cons key.toList value (ofList rest)

end JsonMembers

namespace Json

def quote (spelling : List Char) : List Char := '"' :: spelling ++ ['"']

/-! ## Compact layout -/

mutual

/-- The document without any white space. -/
def compactChars : Json → List Char
  | null => "null".toList
  | bool value => (if value then "true" else "false").toList
  | number spelling => spelling
  | string spelling => quote spelling
  | array elements => '[' :: compactElements elements ++ [']']
  | object members => '\x7b' :: compactMembers members ++ ['\x7d']

def compactElements : JsonElements → List Char
  | .nil => []
  | .cons head .nil => compactChars head
  | .cons head tail => compactChars head ++ ',' :: compactElements tail

def compactMembers : JsonMembers → List Char
  | .nil => []
  | .cons key value .nil => quote key ++ ':' :: compactChars value
  | .cons key value tail => quote key ++ ':' :: compactChars value ++ ',' :: compactMembers tail

end

def compact (document : Json) : String := String.ofList document.compactChars

/-! ## Indented layout -/

/-- A new line at a nesting level; each level is two columns deep. -/
def newline (level : Nat) : List Char := '\n' :: List.replicate (2 * level) ' '

mutual

/-- The document with one element or member on each line. -/
def indentedChars (level : Nat) : Json → List Char
  | array (.cons head tail) =>
    '[' :: indentedElements (level + 1) (.cons head tail) ++ newline level ++ [']']
  | object (.cons key value tail) =>
    '\x7b' :: indentedMembers (level + 1) (.cons key value tail) ++ newline level ++ ['\x7d']
  | array .nil => ['[', ']']
  | object .nil => ['\x7b', '\x7d']
  | null => "null".toList
  | bool value => (if value then "true" else "false").toList
  | number spelling => spelling
  | string spelling => quote spelling

def indentedElements (level : Nat) : JsonElements → List Char
  | .nil => []
  | .cons head .nil => newline level ++ indentedChars level head
  | .cons head tail => newline level ++ indentedChars level head ++ ',' :: indentedElements level tail

def indentedMembers (level : Nat) : JsonMembers → List Char
  | .nil => []
  | .cons key value .nil => newline level ++ quote key ++ ':' :: ' ' :: indentedChars level value
  | .cons key value tail =>
    newline level ++ quote key ++ ':' :: ' ' :: indentedChars level value ++
      ',' :: indentedMembers level tail

end

def indented (document : Json) : String := String.ofList (document.indentedChars 0)

end Json

end InfixCalc
