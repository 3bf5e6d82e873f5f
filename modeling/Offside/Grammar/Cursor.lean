import Offside.Text.Bytes
import Offside.Grammar.CharClass

/-!
# Cursors

A cursor stands in a source: it knows what is still to be read, how many bytes have been read, and
which indentations are remembered.  Cursors are values, so a reader that gives up simply goes back
to the cursor that it started from.
-/

namespace Offside

/-- A place in a source while it is being read. -/
structure Cursor where
  /-- What is still to be read. -/
  rest : List Char
  /-- Byte offset of the place. -/
  pos : Nat
  /-- The remembered indentations, the innermost first. -/
  indents : List (List Char)
  deriving DecidableEq, Repr, Inhabited

namespace Cursor

/-- The start of a source. -/
def start (source : List Char) : Cursor :=
  ⟨source, 0, []⟩

/-- The cursor after `taken`, with `rest` to follow. -/
def move (c : Cursor) (taken rest : List Char) : Cursor :=
  { c with rest, pos := c.pos + Text.byteSize taken }

/-- Takes exactly these characters. -/
def eat? (c : Cursor) (cs : List Char) : Option Cursor :=
  (Text.stripPrefix? cs c.rest).map (c.move cs)

/-- Takes one character of the class. -/
def eatOne? (c : Cursor) (k : CharClass) : Option Cursor :=
  match c.rest with
  | [] => none
  | x :: xs => if k.contains x then some (c.move [x] xs) else none

/-- Takes all characters of the class that come next. -/
def eatMany (c : Cursor) (k : CharClass) : Cursor :=
  c.move (c.rest.takeWhile k.contains) (c.rest.dropWhile k.contains)

/-- The text read between a cursor and a later one. -/
def textTo (c later : Cursor) : List Char :=
  c.rest.take (c.rest.length - later.rest.length)

/-- Remembers an indentation as the innermost one. -/
def push (c : Cursor) (indent : List Char) : Cursor :=
  { c with indents := indent :: c.indents }

/-- Forgets the innermost indentation, if there is one. -/
def drop? (c : Cursor) : Option Cursor :=
  match c.indents with
  | [] => none
  | _ :: outer => some { c with indents := outer }

theorem eat?_eq_some_iff {c d : Cursor} {cs : List Char} :
    c.eat? cs = some d ↔ ∃ rest, c.rest = cs ++ rest ∧ d = c.move cs rest := by
  simp only [eat?, Option.map_eq_some_iff, Text.stripPrefix?_eq_some_iff]
  exact exists_congr fun _ => and_congr_right fun _ => eq_comm

end Cursor

end Offside
