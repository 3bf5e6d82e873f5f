/-!
# Rules of the grammar

The rules that take part in syntax trees and in error messages.  Each is known to the reader of an
error message by a description; the order in which the rules are listed is the order of
descriptions in a message.
-/

namespace Offside

/-- A rule of the grammar. -/
inductive Rule where
  | endOfInput
  | program
  | definition
  | params
  | body
  | stmt
  | doStmt
  | ifStmt
  | elifs
  | elifStmt
  | elseStmt
  | lineStmt
  | call
  | args
  | assignment
  | atom
  | name
  | longString
  | string
  | hexNumber
  | octNumber
  | binNumber
  | floatNumber
  | imagNumber
  | decNumber
  deriving DecidableEq, Repr, Inhabited

namespace Rule

/-- All rules, in the order of error messages. -/
def all : List Rule :=
  [endOfInput, program, definition, params, body, stmt, doStmt, ifStmt, elifs, elifStmt, elseStmt,
   lineStmt, call, args, assignment, atom, name, longString, string, hexNumber, octNumber, binNumber,
   floatNumber, imagNumber, decNumber]

/-- What the rule stands for, in the words of an error message. -/
def describe : Rule → String
  | endOfInput => "end of input"
  | program => "program"
  | definition => "function definition"
  | params => "parameters"
  | body => "indented body"
  | stmt => "statement"
  | doStmt => "`do` block"
  | ifStmt => "`if` statement"
  | elifs | elifStmt => "`elif` branch"
  | elseStmt => "`else` branch"
  | lineStmt | atom => "expression"
  | call => "function call"
  | args => "arguments"
  | assignment => "assignment"
  | name => "name"
  | longString | string => "string"
  | hexNumber | octNumber | binNumber | floatNumber | imagNumber | decNumber => "number"

/-- An atomic rule yields its text as one leaf: what is matched inside is neither a part of the tree
nor of an error message. -/
def isAtomic : Rule → Bool
  | endOfInput | name | longString | string | hexNumber | octNumber | binNumber | floatNumber
  | imagNumber | decNumber => true
  | _ => false

end Rule

end Offside
