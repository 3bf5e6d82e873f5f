import Offside.Reading
import Offside.Failure
import Offside.Text.Lines

/-!
# Diagnostics

What a user is told: a code, a message, and a span of the source with a text beside it if there is
one to show.
-/

namespace Offside

/-- A span of the source with a text beside it, which may be empty. -/
structure Label where
  span : Span
  text : String := ""
  deriving DecidableEq, Repr, Inhabited

/-- A message to the user. -/
structure Diagnostic where
  code : String
  message : String
  label : Option Label := none
  deriving DecidableEq, Repr, Inhabited

/-- A source with the name under which it is shown. -/
structure SourceFile where
  name : String := "unknown file"
  text : String
  deriving DecidableEq, Repr, Inhabited

namespace ParseError

/-- The code of all errors of reading. -/
def code : String := "E0100"

/-- The error in words. -/
def message : ParseError → String
  | empty => "empty input"
  | syntaxError _ => "syntax error"
  | malformedTree => "parser internal error"

/-- Where the error is, as shown to a reader. -/
def location? (source : String) : ParseError → Option Text.Location
  | syntaxError e => some (Text.locate source.toList e.offset)
  | _ => none

/-- What the user is told. -/
def diagnostic (e : ParseError) : Diagnostic where
  code := code
  message := e.message
  label :=
    match e with
    | syntaxError e => some ⟨⟨e.offset, e.offset⟩, e.message⟩
    | _ => none

end ParseError

/-- What the user is told of a located failure of some kind. -/
def FailureKind.diagnostic (kind : FailureKind) (message : String) (span : Option Span) :
    Diagnostic where
  code := kind.code
  message := message
  label := span.map fun s => ⟨s, ""⟩

/-- What the user is told of a failure. -/
def Located.diagnostic (f : Failure) : Diagnostic :=
  f.cause.kind.diagnostic f.cause.message f.span

end Offside
