import Offside.Grammar.Pattern

/-!
# The grammar

Blocks are delimited by indentation.  A body remembers its own indentation on top of the enclosing
ones, and each further line of the body starts with all of them.  Blanks inside a line are written
out where they are allowed, so that they never take part of an indentation.

The patterns without a rule of their own leave no trace in trees and messages.
-/

namespace Offside.Pattern

/-! ### Blanks, comments and line ends -/

/-- Blanks inside a line. -/
def sp : Pattern := many .space

/-- The indentation of a line. -/
def indent : Pattern := many1 .space

/-- A line feed, a carriage return, or both. -/
def newline : Pattern := first [text ['\n'], text ['\r', '\n'], text ['\r']]

/-- A comment up to the end of its line. -/
def comment : Pattern := seq (char '#') (many .notLineEnd)

/-- The end of a line, or of the source. -/
def eol : Pattern := all [sp, opt comment, alt newline (ahead (rule .endOfInput))]

/-- A line without code. -/
def blank : Pattern := all [sp, opt comment, newline]

/-! ### Keywords -/

/-- A word that does not go on as a longer name. -/
def word (cs : List Char) : Pattern := seq (text cs) (notAhead (one .nameInner))

def kwDef : Pattern := word ['d', 'e', 'f']
def kwDo : Pattern := word ['d', 'o']
def kwIf : Pattern := word ['i', 'f']
def kwElif : Pattern := word ['e', 'l', 'i', 'f']
def kwElse : Pattern := word ['e', 'l', 's', 'e']

/-- A word that cannot be a name. -/
def keyword : Pattern := first [kwDef, kwDo, kwIf, kwElif, kwElse]

/-! ### Parts of larger rules -/

/-- The end of a header line, and the body below it. -/
def block : Pattern := all [sp, opt (char ':'), eol, star blank, rule .body]

/-- Items between commas, with a last comma allowed; or nothing at all. -/
def commaList (item : Pattern) : Pattern :=
  opt (all [item, star (all [sp, char ',', sp, item]), opt (seq sp (char ','))])

/-- Text between two triple quotes. -/
def longQuoted (q : Char) : Pattern :=
  all [text [q, q, q], star (seq (notAhead (text [q, q, q])) (one .any)), text [q, q, q]]

/-- Text between two quotes on one line; a backslash takes the character after it along. -/
def quoted (q : Char) : Pattern :=
  all [char q, star (alt (seq (char '\\') (one .any)) (one (.within q))), char q]

/-- A letter in either case. -/
def eitherCase (lower upper : Char) : Pattern := alt (char lower) (char upper)

/-- Digits, of which any two may have an underscore between them. -/
def moreDigits : Pattern := star (seq (opt (char '_')) (one .digit))

/-- At least one digit, with single underscores between digits. -/
def digits : Pattern := seq (one .digit) moreDigits

/-- The exponent of a float number. -/
def exponent : Pattern := all [eitherCase 'e' 'E', opt (alt (char '+') (char '-')), digits]

/-- Digits of a notation that starts with a zero and a letter. -/
def based (lower upper : Char) (k : CharClass) : Pattern :=
  all [char '0', eitherCase lower upper, many (.either k (.just '_'))]

end Offside.Pattern

namespace Offside.Rule

open Pattern

/-- **The grammar:** what each rule stands for. -/
def pattern : Rule → Pattern
  | endOfInput => stop
  | program =>
    .all [plus (seq (star blank) (rule definition)), star blank, sp, opt comment, rule endOfInput]
  | definition =>
    .all [kwDef, sp, rule name, sp, char '(', sp, rule params, sp, char ')', block]
  | params => commaList (rule name)
  | body =>
    .all [peekAll, push indent, rule stmt, star (.all [star blank, peekAll, rule stmt]), drop]
  | stmt => first [rule doStmt, rule ifStmt, seq (rule lineStmt) eol]
  | doStmt => seq kwDo block
  | ifStmt => .all [kwIf, sp, rule lineStmt, block, rule elifs, rule elseStmt]
  | elifs => star (rule elifStmt)
  | elifStmt => .all [star blank, peekAll, kwElif, sp, rule lineStmt, block]
  | elseStmt => opt (.all [star blank, peekAll, kwElse, block])
  | lineStmt => first [rule call, rule assignment, rule atom]
  | call => .all [rule name, sp, char '(', sp, rule args, sp, char ')']
  | args => commaList (rule lineStmt)
  | assignment => .all [rule name, sp, char '=', sp, rule lineStmt]
  | atom =>
    first [rule longString, rule string, rule hexNumber, rule octNumber, rule binNumber,
      rule imagNumber, rule floatNumber, rule decNumber, rule name]
  | name => .all [notAhead keyword, one (.either .nameStart (.just '_')), many .nameInner]
  | longString => alt (longQuoted '\'') (longQuoted '"')
  | string => alt (quoted '\'') (quoted '"')
  | hexNumber => based 'x' 'X' .hexDigit
  | octNumber => based 'o' 'O' .octDigit
  | binNumber => based 'b' 'B' .binDigit
  | floatNumber =>
    alt
      (seq (alt (.all [digits, char '.', opt digits]) (seq (char '.') digits)) (opt exponent))
      (seq digits exponent)
  | imagNumber => seq (alt (rule floatNumber) digits) (eitherCase 'j' 'J')
  | decNumber =>
    alt (seq (char '0') (notAhead (one .digit))) (seq (one .nonzeroDigit) moreDigits)

end Offside.Rule
