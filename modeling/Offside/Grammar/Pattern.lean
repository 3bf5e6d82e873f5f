import Offside.Grammar.CharClass
import Offside.Grammar.Rule

/-!
# Patterns

A pattern describes how a piece of source may begin.  Choices are ordered and never revised: the
first alternative that matches is taken, and a repetition takes as many items as it can.  Patterns
may remember an indentation and ask for all remembered ones.
-/

namespace Offside

/-- A parsing pattern. -/
inductive Pattern where
  /-- Exactly these characters. -/
  | text (cs : List Char)
  /-- One character of the class. -/
  | one (k : CharClass)
  /-- As many characters of the class as there are. -/
  | many (k : CharClass)
  /-- The end of the source. -/
  | stop
  /-- One pattern and then the other. -/
  | seq (p q : Pattern)
  /-- The first pattern, or else the second. -/
  | alt (p q : Pattern)
  /-- The pattern as often as it matches. -/
  | star (p : Pattern)
  /-- Whether the pattern would match here; takes nothing. -/
  | ahead (p : Pattern)
  /-- Whether the pattern would not match here; takes nothing. -/
  | notAhead (p : Pattern)
  /-- A rule of the grammar. -/
  | rule (r : Rule)
  /-- The pattern; its text becomes the innermost remembered indentation. -/
  | push (p : Pattern)
  /-- All remembered indentations, the innermost first. -/
  | peekAll
  /-- Forgets the innermost remembered indentation; takes nothing. -/
  | drop
  deriving DecidableEq, Repr, Inhabited

namespace Pattern

/-- Takes nothing. -/
def empty : Pattern := text []

/-- One character. -/
def char (c : Char) : Pattern := text [c]

/-- One pattern after the other. -/
def all : List Pattern → Pattern
  | [] => empty
  | [p] => p
  | p :: q :: ps => seq p (all (q :: ps))

/-- The first of the patterns that matches. -/
def first : List Pattern → Pattern
  | [] => empty
  | [p] => p
  | p :: q :: ps => alt p (first (q :: ps))

/-- The pattern, or nothing. -/
def opt (p : Pattern) : Pattern := alt p empty

/-- At least one character of the class. -/
def many1 (k : CharClass) : Pattern := seq (one k) (many k)

/-- The pattern at least once. -/
def plus (p : Pattern) : Pattern := seq p (star p)

end Pattern

end Offside
