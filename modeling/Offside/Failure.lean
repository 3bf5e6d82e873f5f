import Offside.Span

/-!
# Failures

Why a program stopped, and where.  A cause belongs to one of thirteen kinds, each with a code of its
own, and is put into words in one place.
-/

namespace Offside

/-- The kinds of failures. -/
inductive FailureKind where
  | undefinedName
  | notCallable
  | notAValue
  | arity
  | reservedName
  | formatKey
  | divisionByZero
  | unsupportedComparison
  | noLength
  | notImplemented
  | arithmetic
  | io
  | noEntryPoint
  deriving DecidableEq, Repr, Inhabited

namespace FailureKind

/-- The code under which a kind of failure is known. -/
def code : FailureKind → String
  | undefinedName => "E0001"
  | notCallable => "E0002"
  | notAValue => "E0003"
  | arity => "E0004"
  | reservedName => "E0005"
  | formatKey => "E0006"
  | divisionByZero => "E0007"
  | unsupportedComparison => "E0008"
  | noLength => "E0009"
  | notImplemented => "E0010"
  | arithmetic => "E0011"
  | io => "E0012"
  | noEntryPoint => "E0013"

end FailureKind

/-- Why a program stopped. -/
inductive Cause where
  /-- Call of a name that is not bound. -/
  | undefinedFunction (name : String)
  /-- Use of a name that is not bound. -/
  | undefinedName (name : String)
  /-- Call of a name that is bound to a value. -/
  | notCallable (name : String)
  /-- Use of a name that is bound to a function. -/
  | notAValue (name : String)
  /-- Call with the wrong number of arguments. -/
  | arity (name : String) (expected got : Nat)
  /-- Arithmetic with fewer than two operands. -/
  | tooFewOperands (name : String) (got : Nat)
  /-- Binding of a name that is taken. -/
  | reserved (name : String)
  /-- A placeholder whose name is not bound to a value. -/
  | formatKey (key literal : String)
  /-- A format string that cannot be read. -/
  | formatSyntax (problem literal : String)
  | divisionByZero
  /-- Ordering of values that have no order. -/
  | unsupportedComparison (op lhs rhs : String)
  /-- Length of a value that has none. -/
  | noLength (kind : String)
  /-- A literal that is understood but not supported. -/
  | notImplemented (what : String)
  /-- Arithmetic on a value that is no number. -/
  | arithmetic (op kind : String)
  /-- Nothing could be read or written. -/
  | io (what : String)
  /-- There is no function `main`. -/
  | noMain
  /-- The name `main` is bound to a value. -/
  | mainNotAFunction
  deriving DecidableEq, Repr, Inhabited

namespace Cause

/-- The kind to which a cause belongs. -/
def kind : Cause → FailureKind
  | undefinedFunction _ | undefinedName _ => .undefinedName
  | notCallable _ => .notCallable
  | notAValue _ => .notAValue
  | arity _ _ _ | tooFewOperands _ _ => .arity
  | reserved _ => .reservedName
  | formatKey _ _ | formatSyntax _ _ => .formatKey
  | divisionByZero => .divisionByZero
  | unsupportedComparison _ _ _ => .unsupportedComparison
  | noLength _ => .noLength
  | notImplemented _ => .notImplemented
  | arithmetic _ _ => .arithmetic
  | io _ => .io
  | noMain | mainNotAFunction => .noEntryPoint

/-- The cause in words. -/
def message : Cause → String
  | undefinedFunction name => "call of undefined function: " ++ name
  | undefinedName name => "use of undefined name: " ++ name
  | notCallable name => "call of Value object: " ++ name
  | notAValue name => "use of Function object as Value: " ++ name
  | arity name expected got =>
    "wrong number of arguments when calling " ++ name ++ ": expected " ++ expected.repr ++ ", got " ++
      got.repr
  | tooFewOperands name got => name ++ ": need at least two arguments, got " ++ got.repr
  | reserved name => "Cannot overwrite a predefined function or value: " ++ name
  | formatKey key literal =>
    "Could not find variable '" ++ key ++ "' used in format string " ++ literal
  | formatSyntax problem literal => problem ++ " in format string " ++ literal
  | divisionByZero => "division by zero"
  | unsupportedComparison op lhs rhs =>
    "`" ++ op ++ "` between " ++ lhs ++ " and " ++ rhs ++ " is not supported"
  | noLength kind => "object of type " ++ kind ++ " has no length"
  | notImplemented what => what ++ " is not implemented yet"
  | arithmetic op kind => op ++ ": unsupported operand of type " ++ kind
  | io what => what
  | noMain => "main Function not defined"
  | mainNotAFunction => "main is not a Function"

/-- Trouble that the input or the output reports in its own words. -/
def stream (what : String) : Cause :=
  io ("I/O error: " ++ what)

end Cause

/-- Something with the span of the source to blame for it, if one is known. -/
structure Located (α : Type) where
  cause : α
  span : Option Span := none
  deriving DecidableEq, Repr, Inhabited

namespace Located

variable {α : Type}

/-- Puts the blame on a span. -/
def blame (f : Located α) (s : Span) : Located α :=
  { f with span := some s }

/-- Puts the blame on a span unless it is known already. -/
def orSpan (f : Located α) (s : Span) : Located α :=
  { f with span := f.span <|> some s }

end Located

/-- A failure of a running program. -/
abbrev Failure := Located Cause

end Offside
