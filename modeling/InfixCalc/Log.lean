/-!
# Logs

A computation that keeps a log is a list of records beside its result, so that the log is data. Two
such computations run one after the other by `Logged.andThen`, which stops at a failure.
-/

namespace InfixCalc

inductive LogLevel where
  | info
  | debug
  | trace
deriving DecidableEq, Repr

structure LogRecord where
  level : LogLevel
  message : String
deriving DecidableEq, Repr

/-- A result and what was logged on the way to it. -/
structure Logged (α : Type) where
  records : List LogRecord
  value : α

namespace Logged

variable {α β ε ε' : Type}

/-- A silent result. -/
def pure (a : α) : Logged α := ⟨[], a⟩

def map (f : α → β) (x : Logged α) : Logged β := ⟨x.records, f x.value⟩

/-- Puts one record in front, if it is wanted. -/
def announce (wanted : Bool) (message : String) (x : Logged α) : Logged α :=
  ⟨(if wanted then [⟨.info, message⟩] else []) ++ x.records, x.value⟩

/-- A result that is logged if it is a success. -/
def ofSuccess (result : Except ε α) (message : α → String) : Logged (Except ε α) :=
  match result with
  | .ok a => ⟨[⟨.debug, message a⟩], .ok a⟩
  | .error e => ⟨[], .error e⟩

/-- Goes on with a success; a failure ends the log. -/
def andThen (x : Logged (Except ε α)) (f : α → Logged (Except ε β)) : Logged (Except ε β) :=
  match x.value with
  | .ok a =>
    let y := f a
    ⟨x.records ++ y.records, y.value⟩
  | .error e => ⟨x.records, .error e⟩

/-- Runs one computation for each element, in order. -/
def forEach (f : α → Logged β) : List α → Logged (List β)
  | [] => ⟨[], []⟩
  | a :: as =>
    let x := f a
    let rest := forEach f as
    ⟨x.records ++ rest.records, x.value :: rest.value⟩

end Logged

end InfixCalc
