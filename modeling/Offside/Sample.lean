import Offside.Syntax

/-!
# Sample programs

Small programs built by hand, which show what the language can do.  Their parts carry no spans of a
source.
-/

namespace Offside

namespace Expr

/-- A variable. -/
def var (n : String) : Expr := .name ⟨n, .initial⟩ .initial

/-- A decimal number. -/
def ofInt (i : Int) : Expr := .number .dec i.repr .initial

/-- A string in single quotes. -/
def raw (content : String) : Expr := .string ⟨content, .single, false⟩ .initial

/-- A format string. -/
def template (content : String) : Expr := .string ⟨content, .double, false⟩ .initial

/-- The call of a function by name. -/
def apply (f : String) (args : List Expr) : Expr := .call ⟨f, .initial⟩ args .initial

/-- The assignment of a variable by name. -/
def set (n : String) (value : Expr) : Expr := .assign ⟨n, .initial⟩ value .initial

end Expr

namespace Stmt

/-- An expression as a statement, which has the same span. -/
def ofExpr (e : Expr) : Stmt := .line e e.span

/-- A block of statements. -/
def doBlock (stmts : List Stmt) : Stmt := .block (.mk stmts .initial) .initial

/-- A chain of conditions with their statements, and the statements for none of them. -/
def chain (branches : List (Expr × List Stmt)) (otherwise : Option (List Stmt)) : Stmt :=
  .cond (branches.map fun (test, ss) => .mk test (.mk ss .initial))
    (otherwise.map fun ss => .mk ss .initial) .initial

end Stmt

namespace FunDef

/-- A function by names and statements. -/
def ofStmts (name : String) (params : List String) (stmts : List Stmt) : FunDef :=
  ⟨⟨name, .initial⟩, params.map fun p => ⟨p, .initial⟩, .mk stmts .initial, .initial⟩

end FunDef

namespace Sample

open Offside.Expr Offside.Stmt

/-- The main function with these statements. -/
def mainOf (stmts : List Stmt) : FunDef := .ofStmts "main" [] stmts

/-- A statement that prints. -/
def print (args : List Expr) : Stmt := .ofExpr (apply "print" args)

/-- The sign of a number in words. -/
def sign : FunDef :=
  .ofStmts "sign" ["x"]
    [chain
      [(apply "lt" [var "x", ofInt 0], [.ofExpr (raw "negative")]),
       (apply "eq" [var "x", ofInt 0], [.ofExpr (raw "zero")])]
      (some [.ofExpr (raw "positive")])]

/-- Prints the signs of a few numbers. -/
def signs : Program where
  funs :=
    [mainOf
      [print [apply "sign" [apply "sub" [ofInt 0, ofInt 5]]],
       print [apply "sign" [ofInt 0]],
       print [apply "sign" [ofInt 5]]],
     sign]

/-- A block yields the value of its last statement. -/
def blockResult : Program where
  funs :=
    [mainOf
      [doBlock
        [.ofExpr (set "a" (ofInt 20)),
         .ofExpr (set "b" (ofInt 22)),
         .ofExpr (apply "add" [var "a", var "b"])],
       print [var "_", var "a"]]]

/-- Counts to ten by recursion. -/
def countToTen : Program where
  funs :=
    [mainOf
      [.ofExpr (set "x" (apply "count" [ofInt 0])),
       print [var "x"]],
     .ofStmts "count" ["x"]
      [chain
        [(apply "lt" [var "x", ofInt 10],
          [.ofExpr (apply "count" [apply "add" [var "x", ofInt 1]])])]
        (some [.ofExpr (var "x")])]]

/-- The factorial of a number. -/
def factorial : FunDef :=
  .ofStmts "fact" ["n"]
    [chain
      [(apply "leq" [var "n", ofInt 1], [.ofExpr (ofInt 1)])]
      (some
        [.ofExpr (apply "mul" [var "n", apply "fact" [apply "sub" [var "n", ofInt 1]]])])]

/-- Prints the factorial of the length of a line of input. -/
def factorialOfInput : Program where
  funs :=
    [mainOf
      [.ofExpr (set "word" (apply "input" [])),
       .ofExpr (set "n" (apply "length" [var "word"])),
       .ofExpr (set "res" (apply "fact" [var "n"])),
       print [template "\x7bn\x7d! = \x7bres\x7d"]],
     factorial]

/-- A variable in a format string. -/
def theAnswer : Program where
  funs :=
    [mainOf
      [.ofExpr (set "x" (ofInt 42)),
       print [template "the answer is \x7bx\x7d"]]]

/-- Format strings, plain strings and doubled braces. -/
def braces : Program where
  funs :=
    [mainOf
      [.ofExpr (set "name" (raw "asdf")),
       print [template "\x7b\x7bname\x7d\x7d is \x7bname\x7d", raw "\x7bname\x7d"]]]

/-- Prints a string. -/
def printAnswer : Program where
  funs := [mainOf [print [raw "42"]]]

/-- Doubles a number by a call. -/
def doubleCall : Program where
  funs :=
    [mainOf [print [apply "f" [ofInt 21]]],
     .ofStmts "f" ["x"] [.ofExpr (apply "mul" [var "x", ofInt 2])]]

/-- Calls a function that does not exist. -/
def undefinedCall : Program where
  funs := [mainOf [.ofExpr (apply "undefinedfun" [ofInt 42])]]

/-- Adds a single number. -/
def lonelyAdd : Program where
  funs := [mainOf [print [apply "add" [ofInt 1]]]]

end Sample

end Offside
