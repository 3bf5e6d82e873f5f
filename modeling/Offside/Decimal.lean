/-!
# Decimal numbers

Reading integers from decimal text, as literals and as plain numbers.  A literal may have underscores
anywhere; they carry no meaning.
-/

namespace Offside.Decimal

/-- Reads a text of decimal digits, of which there must be one at least. -/
def readNat? (cs : List Char) : Option Nat :=
  if cs ≠ [] ∧ cs.all Char.isDigit then some (Nat.ofDigitChars 10 cs 0) else none

/-- Reads an integer: a minus sign, a plus sign or no sign, and then digits. -/
def readInt? : List Char → Option Int
  | '-' :: cs => (readNat? cs).map fun n => -(n : Int)
  | '+' :: cs => (readNat? cs).map Int.ofNat
  | cs => (readNat? cs).map Int.ofNat

/-- The integer that a literal denotes. -/
def literal? (text : String) : Option Int :=
  readInt? (text.toList.filter (· ≠ '_'))

end Offside.Decimal
