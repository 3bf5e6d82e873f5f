import Offside.Text.Blank
import Offside.Text.Width
import Offside.Report.Classic

/-!
# The framed report

A header with the code and the message, and below it an excerpt of the source in a frame: the place,
the lines with their numbers, and carets under the blamed part.  Columns are those of a terminal:
tabs are spaces up to the next stop, and wide characters take two columns.

A part of several lines has a bar at its left, and of many lines the first four and the last two are
shown.
-/

namespace Offside.Report

open Text

/-! ### Columns -/

/-- Distance of the tab stops. -/
def tabWidth : Nat := 4

/-- A character of a shown line: its byte offset in the line and the number of its columns. -/
structure Glyph where
  offset : Nat
  char : Char
  width : Nat
  deriving DecidableEq, Repr, Inhabited

/-- The glyphs of a text that starts at a byte offset and a column. -/
def glyphsFrom : Nat → Nat → List Char → List Glyph
  | _, _, [] => []
  | offset, column, c :: cs =>
    let w := if c = '\t' then tabWidth - column % tabWidth else charWidth c
    ⟨offset, c, w⟩ :: glyphsFrom (offset + c.utf8Size) (column + w) cs

/-- The glyphs of a line. -/
def glyphs (cs : List Char) : List Glyph :=
  glyphsFrom 0 0 cs

/-- The characters of a line that a frame shows. -/
def framedChars (line : Line) : List Char :=
  trimEnd (fun c => c == '\n' || c == '\r' || c == '\x00') line.chars

/-- The text of a line with spaces for tabs. -/
def expanded (cs : List Char) : String :=
  String.ofList ((glyphs cs).flatMap fun g =>
    if g.char = '\t' then List.replicate g.width ' ' else [g.char])

/-- Number of columns of all characters that start before a byte offset of the line. -/
def columnsBefore (cs : List Char) (offset : Nat) : Nat :=
  ((glyphs cs).takeWhile (·.offset < offset)).foldl (fun n g => n + g.width) 0

/-- The carets under the bytes from `start` to `stop` of a line, with spaces before them.  One more
column after the last character may be marked. -/
def caretLine (cs : List Char) (start stop : Nat) : String :=
  String.ofList ((glyphs cs ++ [Glyph.mk (byteSize cs) '\x00' 1]).flatMap fun g =>
    if max start g.offset < min stop (g.offset + g.char.utf8Size) then List.replicate g.width '^'
    else if g.offset < stop then List.replicate g.width ' '
    else [])

/-! ### Lines of the frame -/

/-- The frame beside a line without a number. -/
def blankGutter (pad : Nat) (edge : String) : String :=
  run ' ' pad ++ " " ++ edge

/-- The frame beside a numbered line. -/
def numberGutter (pad : Nat) (line : Line) : String :=
  alignRight pad line.number ++ " │"

/-- A text after a space, unless it is empty. -/
def trailing (text : String) : String :=
  if text = "" then "" else " " ++ text

/-- The excerpt for a part of one line. -/
def excerptLine (pad : Nat) (line : Line) (label : Label) : List String :=
  let cs := framedChars line
  let start := label.span.start - line.start
  let stop := max (label.span.stop - line.start) (start + 1)
  [blankGutter pad "│",
   numberGutter pad line ++ " " ++ expanded cs,
   blankGutter pad "│ " ++ caretLine cs start stop ++ trailing label.text]

/-- The lines of a part of several lines that are shown: the first four and the last two.  Where one
line alone would be left out it is shown as well. -/
def shownOf (first last number : Nat) : Bool :=
  number ≤ first + 3 || last ≤ number + 1 || (number = first + 4 && last = first + 6)

/-- Does nothing but white space stand before a byte offset of a line? -/
def opensLine (cs : List Char) (offset : Nat) : Bool :=
  offset ≤ byteSize (cs.takeWhile isBlank)

/-- The first line of a part of several lines. -/
def topLines (pad : Nat) (line : Line) (offset : Nat) : List String :=
  let cs := framedChars line
  if opensLine cs offset then [numberGutter pad line ++ " ╭ " ++ expanded cs]
  else
    [numberGutter pad line ++ "   " ++ expanded cs,
     blankGutter pad "│ ╭" ++ run '─' (columnsBefore cs (offset + 1)) ++ "^"]

/-- A further line of a part of several lines, and what stands in for those left out after it. -/
def middleLines (pad first last : Nat) (line : Line) : List String :=
  if shownOf first last line.number then
    [numberGutter pad line ++ " │ " ++ expanded (framedChars line)]
  else if shownOf first last (line.number + 1) then [blankGutter pad "· │"]
  else []

/-- The line below a part of several lines. -/
def bottomLine (pad : Nat) (line : Line) (offset : Nat) (text : String) : String :=
  blankGutter pad "│ ╰" ++ run '─' (columnsBefore (framedChars line) offset) ++ "^" ++ trailing text

/-- The excerpt for a part of several lines. -/
def excerptLines (pad : Nat) (ls : List Line) (first last : Line) (label : Label) : List String :=
  [blankGutter pad "│  "] ++ topLines pad first (label.span.start - first.start) ++
    (ls.filter fun l => first.number < l.number && l.number ≤ last.number).flatMap
      (middleLines pad first.number last.number) ++
    [bottomLine pad last (label.span.stop - last.start) label.text]

/-- The excerpt of a source for a label. -/
def excerpt (file : SourceFile) (label : Label) : List String :=
  let ls := lines file.text.toList
  let first := lineAt ls label.span.start
  let last := lineAt ls label.span.stop
  let pad := last.number.repr.length
  let place := file.name ++ ":" ++ first.number.repr ++ ":" ++ (first.column label.span.start).repr
  (blankGutter pad "┌─ " ++ place) ::
    (if first.number = last.number then excerptLine pad first label
     else excerptLines pad ls first last label)

/-- **The framed report.** -/
def framed (file : SourceFile) (d : Diagnostic) : String :=
  let header := "error[" ++ d.code ++ "]: " ++ d.message
  let body :=
    match d.label with
    | none => []
    | some label => excerpt file label
  String.join (([header] ++ body ++ [""]).map (· ++ "\n"))

end Offside.Report
