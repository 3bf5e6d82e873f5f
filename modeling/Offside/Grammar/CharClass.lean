import Offside.Text.Identifier

/-!
# Classes of characters

The classes that the grammar speaks of: blanks inside a line, digits of the number notations,
characters of names, and what may stand in a comment or between two quotes.
-/

namespace Offside

/-- A class of characters. -/
inductive CharClass where
  /-- Every character. -/
  | any
  /-- That character only. -/
  | just (c : Char)
  /-- Any character that does not end a line. -/
  | notLineEnd
  /-- Any character that neither ends a line nor closes the quote. -/
  | within (quote : Char)
  /-- A space or a tab. -/
  | space
  | digit
  | nonzeroDigit
  | hexDigit
  | octDigit
  | binDigit
  /-- A letter that may start a name. -/
  | nameStart
  /-- A character that may stand inside a name. -/
  | nameInner
  /-- A character of either class. -/
  | either (a b : CharClass)
  deriving DecidableEq, Repr, Inhabited

namespace CharClass

/-- Is the character in the class? -/
def contains : CharClass → Char → Bool
  | any, _ => true
  | just x, c => c == x
  | notLineEnd, c => c != '\n' && c != '\r'
  | within q, c => c != q && c != '\n' && c != '\r'
  | space, c => c == ' ' || c == '\t'
  | digit, c => '0' ≤ c && c ≤ '9'
  | nonzeroDigit, c => '1' ≤ c && c ≤ '9'
  | hexDigit, c => ('0' ≤ c && c ≤ '9') || ('a' ≤ c && c ≤ 'f') || ('A' ≤ c && c ≤ 'F')
  | octDigit, c => '0' ≤ c && c ≤ '7'
  | binDigit, c => c == '0' || c == '1'
  | nameStart, c => Text.isNameStart c
  | nameInner, c => Text.isNameInner c
  | either a b, c => a.contains c || b.contains c

end CharClass

end Offside
