import Offside.Span

/-!
# Programs

A program is a list of functions.  A function has parameters and a body, a body is a list of
statements, and a statement is an expression on a line of its own, a `do` block, or an `if` chain.
Every part carries the span of the source that it was read from; parts built by hand carry the
initial span.
-/

namespace Offside

/-- A name in the source: of a function, a parameter or a variable. -/
structure Ident where
  name : String
  span : Span := .initial
  deriving DecidableEq, Repr, Inhabited

/-- Two identifiers are the same name wherever they stand. -/
instance : BEq Ident := ⟨fun a b => a.name == b.name⟩

/-- Delimiter of a string literal. -/
inductive Quote where
  /-- The text is taken as it stands. -/
  | single
  /-- The text is a template with placeholders. -/
  | double
  deriving DecidableEq, Repr, Inhabited

namespace Quote

/-- The delimiter as a character. -/
def mark : Quote → Char
  | single => '\''
  | double => '"'

end Quote

/-- A string literal without its delimiters. -/
structure StrLit where
  content : String
  quote : Quote
  /-- Whether the delimiters are tripled. -/
  long : Bool
  deriving DecidableEq, Repr, Inhabited

namespace StrLit

/-- Double quotes make a string a template. -/
def isTemplate (lit : StrLit) : Bool :=
  lit.quote = .double

/-- The delimiter, once or three times. -/
def delimiter (lit : StrLit) : String :=
  String.ofList (List.replicate (if lit.long then 3 else 1) lit.quote.mark)

/-- The literal as it is written in a source. -/
def sourceForm (lit : StrLit) : String :=
  lit.delimiter ++ lit.content ++ lit.delimiter

end StrLit

/-- Notation of a number literal. -/
inductive NumberKind where
  | dec
  | hex
  | oct
  | bin
  | float
  | imag
  deriving DecidableEq, Repr, Inhabited

namespace NumberKind

/-- The notation in words. -/
def describe : NumberKind → String
  | dec => "decimal number"
  | hex => "hexadecimal number"
  | oct => "octal number"
  | bin => "binary number"
  | float => "float number"
  | imag => "imaginary number"

end NumberKind

/-- An expression. -/
inductive Expr where
  /-- The call of a function. -/
  | call (callee : Ident) (args : List Expr) (span : Span)
  /-- An assignment, which also yields the assigned value. -/
  | assign (target : Ident) (value : Expr) (span : Span)
  /-- A name used as a value. -/
  | name (ident : Ident) (span : Span)
  /-- A string literal. -/
  | string (lit : StrLit) (span : Span)
  /-- A number literal as it is written. -/
  | number (kind : NumberKind) (text : String) (span : Span)
  deriving Repr, Inhabited

namespace Expr

/-- Where the expression stands. -/
def span : Expr → Span
  | call _ _ s => s
  | assign _ _ s => s
  | name _ s => s
  | string _ s => s
  | number _ _ s => s

end Expr

mutual

/-- A statement. -/
inductive Stmt where
  /-- An expression on a line of its own. -/
  | line (expr : Expr) (span : Span)
  /-- A `do` block, which shares the variables around it. -/
  | block (body : Body) (span : Span)
  /-- An `if` chain: the `if` and `elif` branches in order, and the `else` body if there is one. -/
  | cond (branches : List Branch) (otherwise : Option Body) (span : Span)

/-- A condition with the body that runs when it holds. -/
inductive Branch where
  | mk (test : Expr) (body : Body)

/-- Consecutive statements of one indentation. -/
inductive Body where
  | mk (stmts : List Stmt) (span : Span)

end

namespace Stmt

/-- Where the statement stands. -/
def span : Stmt → Span
  | line _ s => s
  | block _ s => s
  | cond _ _ s => s

end Stmt

namespace Branch

/-- The condition of a branch. -/
def test : Branch → Expr
  | mk t _ => t

/-- The body of a branch. -/
def body : Branch → Body
  | mk _ b => b

end Branch

namespace Body

/-- The statements of a body in order. -/
def stmts : Body → List Stmt
  | mk ss _ => ss

/-- Where the body stands. -/
def span : Body → Span
  | mk _ s => s

instance : Inhabited Body := ⟨mk [] .initial⟩

end Body

/-- A function of the program. -/
structure FunDef where
  name : Ident
  params : List Ident
  body : Body
  span : Span := .initial
  deriving Inhabited

namespace FunDef

/-- Number of parameters. -/
def arity (f : FunDef) : Nat :=
  f.params.length

end FunDef

/-- A program: its functions in source order. -/
structure Program where
  funs : List FunDef
  span : Span := .initial
  deriving Inhabited

namespace Program

/-- The first function of that name. -/
def get? (p : Program) (name : String) : Option FunDef :=
  p.funs.find? (·.name.name == name)

end Program

end Offside
