import InfixCalc.Error
/-!
# Diagnostics

How a failure is reported: by its message and either a label on the offending stretch of the source
or, if the error has no place in it, a note.
-/

namespace InfixCalc

/-- A remark on a stretch of a source file. -/
structure Label where
  file : Nat
  span : Span
  text : String
deriving DecidableEq, Repr

structure Diagnostic where
  message : String
  label? : Option Label
  notes : List String
deriving DecidableEq, Repr

/-- The diagnostic of a failure in the file with a given number. -/
def Failure.toDiagnostic (file : Nat) (failure : Failure) : Diagnostic :=
  match failure with
  | .parse error => match error.span? with
    | some span => ⟨failure.message, some ⟨file, span, error.remark⟩, []⟩
    | none => ⟨failure.message, none, [error.remark]⟩
  | .eval _ | .input _ => ⟨failure.message, none, []⟩

end InfixCalc
