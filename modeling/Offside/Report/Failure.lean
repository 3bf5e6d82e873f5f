import Offside.Run.Exec
import Offside.Report.Framed

/-!
# Reports of failures

The text that a user is shown when a program fails, in the form asked for.
-/

namespace Offside.Report

/-- The plain report of a failure, if it can be drawn. -/
def classicOf (file : SourceFile) (f : Failure) : Option String :=
  classic file.text f.cause.message f.span

/-- What is shown for a failure: the framed report, or the plain one on a line of its own. -/
def ofFailure (rich : Bool) (file : SourceFile) (f : Failure) : Option String :=
  if rich then some (framed file f.diagnostic) else (classicOf file f).map (· ++ "\n")

/-- What is shown for a source that is not a program. -/
def ofParseError (file : SourceFile) (e : ParseError) : String :=
  framed file e.diagnostic

/-- The message for a run that was cut off. -/
def internal : Stop → String
  | .failed f => f.cause.message
  | .invalidInteger text => "parser internal error: invalid integer " ++ text
  | .tooDeep => "calls are nested too deeply"

/-- What is shown for a run that stopped. -/
def ofStop (rich : Bool) (file : SourceFile) (why : Stop) : String :=
  match why with
  | .failed f => (ofFailure rich file f).getD (internal why ++ "\n")
  | why => internal why ++ "\n"

end Offside.Report
