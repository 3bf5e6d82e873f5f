import Offside.Report.Diagnostic

/-!
# The plain report of a failure

The lines of the source that a failure spans, with carets under the blamed part if it lies on one
line, and below them the message.  Columns count characters, and tabs are kept.
-/

namespace Offside.Report

open Text

/-- A run of one character. -/
def run (c : Char) (n : Nat) : String :=
  String.ofList (List.replicate n c)

/-- A number at the right of a column of the given width. -/
def alignRight (width n : Nat) : String :=
  run ' ' (width - n.repr.length) ++ n.repr

/-- The margin of every line of the report. -/
def margin : String := "  "

/-- A line of the source without the characters that end it. -/
def shownLine (line : Line) : String :=
  String.ofList (trimEnd (fun c => c == '\n' || c == '\r') line.chars)

/-- A numbered line of the source. -/
def numbered (line : Line) : String :=
  margin ++ alignRight 4 line.number ++ " | " ++ shownLine line ++ "\n"

/-- The number of columns between the margin and the first character of a shown line, less one. -/
def gutter (line : Line) : Nat :=
  2 + max line.number.repr.length 4

/-- The line of carets under a part of a line that starts at an offset and has `n` characters. -/
def carets (line : Line) (start n : Nat) : String :=
  margin ++ run ' ' (line.column start + gutter line) ++ run '^' (max n 1) ++ "\n"

/-- A message with a margin before each of its lines. -/
def indented (message : String) : String :=
  String.intercalate "\n" ((messageLines message.toList).map fun l => margin ++ String.ofList l)

/-- The report on a part of one line. -/
def oneLine (line : Line) (start : Nat) (blamed : List Char) (message : String) : String :=
  "\nError during execution of line " ++ line.number.repr ++ ":\n\n" ++ numbered line ++
    carets line start blamed.length ++ "\n" ++ indented message

/-- The report on several lines. -/
def severalLines (ls : List Line) (first last : Nat) (message : String) : String :=
  "Error during execution of lines " ++ first.repr ++ " - " ++ last.repr ++ ":\n\n" ++
    String.join ((ls.filter fun l => first ≤ l.number && l.number ≤ last).map numbered) ++ "\n" ++
    indented message

/-- **The plain report.**  There is none if the blamed part lies on one line and does not start and
end between characters of the source. -/
def classic (source message : String) (span : Option Span) : Option String :=
  match span with
  | none => some ("Error during execution: " ++ message)
  | some s =>
    let cs := source.toList
    let ls := lines cs
    let first := lineAt ls s.start
    let last := lineAt ls s.stop
    if first.number = last.number then
      (slice? cs s.start s.stop).map fun blamed => oneLine first s.start blamed message
    else some (severalLines ls first.number last.number message)

end Offside.Report
