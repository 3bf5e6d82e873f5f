import Offside.Text.Bytes

/-!
# Lines and locations

A source is cut into lines after each line feed.  A byte offset lies on the last line that starts at
or before it; its column counts the characters of that line that end at or before it.
-/

namespace Offside.Text

/-- One line of a source, with its number from 1, the offset of its first byte, and its characters,
the line feed included. -/
structure Line where
  number : Nat
  start : Nat
  chars : List Char
  deriving DecidableEq, Repr, Inhabited

/-- Cuts a text after each line feed.  The last piece may be empty and has no line feed. -/
def cutLines : List Char → List (List Char)
  | [] => [[]]
  | '\n' :: cs => ['\n'] :: cutLines cs
  | c :: cs =>
    match cutLines cs with
    | [] => [[c]]
    | line :: lines => (c :: line) :: lines

/-- Numbers consecutive pieces and gives each its offset. -/
def numberLines : Nat → Nat → List (List Char) → List Line
  | _, _, [] => []
  | number, start, cs :: rest =>
    ⟨number, start, cs⟩ :: numberLines (number + 1) (start + byteSize cs) rest

/-- The lines of a source. -/
def lines (source : List Char) : List Line :=
  numberLines 1 0 (cutLines source)

/-- The line on which an offset lies: the last one that starts at or before it. -/
def lineAt (ls : List Line) (offset : Nat) : Line :=
  ((ls.takeWhile (·.start ≤ offset)).getLast?).getD ⟨1, 0, []⟩

/-- Number, from 1, of the column of an offset on its line. -/
def Line.column (line : Line) (offset : Nat) : Nat :=
  charsWithin line.chars (offset - line.start) + 1

/-- Removes all characters of a class from the end of a text. -/
def trimEnd (drop : Char → Bool) (cs : List Char) : List Char :=
  (cs.reverse.dropWhile drop).reverse

/-- A line without its line feed and a carriage return right before that. -/
def chomp (line : List Char) : List Char :=
  match line.reverse with
  | '\n' :: '\r' :: cs => cs.reverse
  | '\n' :: cs => cs.reverse
  | _ => line

/-- The lines of a message, without their line ends.  A line end at the very end starts no line. -/
def messageLines (cs : List Char) : List (List Char) :=
  ((cutLines cs).filter (· ≠ [])).map chomp

/-- A place in a source as shown to a reader, both numbers from 1. -/
structure Location where
  line : Nat
  column : Nat
  deriving DecidableEq, Repr, Inhabited

/-- The place of a byte offset. -/
def locate (source : List Char) (offset : Nat) : Location :=
  let line := lineAt (lines source) offset
  ⟨line.number, line.column offset⟩

/-- Nothing is lost by cutting a text into lines. -/
theorem flatten_cutLines (cs : List Char) : (cutLines cs).flatten = cs := by
  fun_induction cutLines cs <;> simp_all

end Offside.Text
