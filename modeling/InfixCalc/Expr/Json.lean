import InfixCalc.Expr
import InfixCalc.Json.Number
/-!
# Trees as JSON documents

A node is an object with one member, whose key tells the kind of the node. On reading, an object
with fixed fields may have them in any order and others beside them, or be an array of them in the
fixed order; and only so many levels of nesting are followed.
-/

namespace InfixCalc

namespace Expr

open Json (object string)

def toJson : Expr → Json
  | number v => node "Operand" [("value", v.toJson)]
  | binary op l r =>
    node "Operator" [("op", string op.name.toList), ("left", l.toJson), ("right", r.toJson)]
where
  node (kind : String) (fields : List (String × Json)) : Json :=
    object (.ofList [(kind, object (.ofList fields))])

/-! ## Reading -/

/-- The one member with a given key; there must not be two. -/
def field? (fields : List (List Char × Json)) (key : String) : Option Json :=
  match fields.filter (·.1 = key.toList) with
  | [(_, value)] => some value
  | _ => none

/-- The values of the fixed fields of an object, in the order of their names. -/
def fields? (names : List String) : Json → Option (List Json)
  | .array elements =>
    if elements.toList.length = names.length then some elements.toList else none
  | .object members => do
    let fields ← members.toList.mapM fun (key, value) => (Json.unescape? key).map (·, value)
    names.mapM (field? fields)
  | _ => none

def operatorNamed? (spelling : List Char) : Option Operator :=
  (Json.unescape? spelling).bind fun name => Operator.all.find? (·.name.toList = name)

/-- An operator is its name, or an object with the name as its key and no value. -/
def operator? (levels : Nat) : Json → Option Operator
  | .string spelling => operatorNamed? spelling
  | .object (.cons key .null .nil) => if levels = 0 then none else operatorNamed? key
  | _ => none

/-- A number field; any spelling of a number is allowed. -/
def value? : Json → Option Number
  | .number spelling => Number.ofJsonSpelling? spelling
  | _ => none

/-- The tree of a document in which at most `levels` objects and arrays are nested. -/
def ofJsonWithin? : Nat → Json → Option Expr
  | levels + 2, .object (.cons kind body .nil) =>
    (Json.unescape? kind).bind fun kind =>
      if kind = "Operand".toList then
        match fields? ["value"] body with
        | some [value] => (value? value).map .number
        | _ => none
      else if kind = "Operator".toList then
        match fields? ["op", "left", "right"] body with
        | some [op, left, right] => do
          let op ← operator? levels op
          let left ← ofJsonWithin? levels left
          let right ← ofJsonWithin? levels right
          some (.binary op left right)
        | _ => none
      else none
  | _, _ => none

/-- The levels of nesting that are followed. -/
def maxJsonLevels : Nat := 127

/-- The tree of a JSON text. -/
def ofJsonText? (text : String) : Option Expr :=
  (Json.ofText? text).bind (ofJsonWithin? maxJsonLevels)

end Expr

end InfixCalc
