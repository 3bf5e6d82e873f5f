import Offside.Syntax
import Offside.Text.Blank
import Offside.Grammar.Expected

/-!
# Reading programs

A source is matched against the grammar, and the resulting tree of nodes is taken as a program.
Taking a tree as a program can only fail on trees that the grammar does not produce.
-/

namespace Offside

namespace Ident

/-- Takes the node of a name. -/
def ofNode? : Node → Option Ident
  | n@(.leaf .name _ text) => some ⟨String.ofList text, n.span⟩
  | _ => none

end Ident

namespace StrLit

/-- The literal spelt by a text with its delimiters, which are `width` characters at each end. -/
def ofText (width : Nat) (text : List Char) : StrLit where
  content := String.ofList ((text.drop width).take (text.length - 2 * width))
  quote := if text.head? = some '"' then .double else .single
  long := width = 3

end StrLit

namespace NumberKind

/-- The notation that a rule of the grammar stands for. -/
def ofRule? : Rule → Option NumberKind
  | .decNumber => some dec
  | .hexNumber => some hex
  | .octNumber => some oct
  | .binNumber => some bin
  | .floatNumber => some float
  | .imagNumber => some imag
  | _ => none

end NumberKind

namespace Expr

/-- Takes the leaf of an atomic rule. -/
def ofLeaf? (rule : Rule) (start : Nat) (text : List Char) : Option Expr :=
  let span : Span := ⟨start, start + Text.byteSize text⟩
  match rule with
  | .name => some (.name ⟨String.ofList text, span⟩ span)
  | .string => some (.string (.ofText 1 text) span)
  | .longString => some (.string (.ofText 3 text) span)
  | r => (NumberKind.ofRule? r).map fun kind => .number kind (String.ofList text) span

mutual

/-- Takes the node of an expression. -/
def ofNode? : Node → Option Expr
  | .leaf rule start text => ofLeaf? rule start text
  | .branch .lineStmt _ [n] => ofNode? n
  | .branch .atom _ [n] => ofNode? n
  | .branch .call span [callee, .branch .args _ args] => do
    return .call (← Ident.ofNode? callee) (← ofNodes? args) span
  | .branch .assignment span [target, value] => do
    return .assign (← Ident.ofNode? target) (← ofNode? value) span
  | .branch _ _ _ => none

/-- Takes the nodes of several expressions. -/
def ofNodes? : List Node → Option (List Expr)
  | [] => some []
  | n :: ns => do return (← ofNode? n) :: (← ofNodes? ns)

end

end Expr

mutual

/-- Takes the node of a statement. -/
def Stmt.ofNode? : Node → Option Stmt
  | .branch .stmt _ [n] => Stmt.ofInner? n
  | _ => none

/-- Takes the node inside the node of a statement. -/
def Stmt.ofInner? : Node → Option Stmt
  | .branch .doStmt span [body] => do return .block (← Body.ofNode? body) span
  | .branch .ifStmt span [test, body, .branch .elifs _ elifs, .branch .elseStmt _ otherwise] => do
    let test ← Expr.ofNode? test
    let body ← Body.ofNode? body
    return .cond (.mk test body :: (← Branch.ofNodes? elifs)) (← Body.ofOptional? otherwise) span
  | n@(.branch .lineStmt span _) => do return .line (← Expr.ofNode? n) span
  | _ => none

/-- Takes the nodes of the statements of a body. -/
def Stmt.ofNodes? : List Node → Option (List Stmt)
  | [] => some []
  | n :: ns => do return (← Stmt.ofNode? n) :: (← Stmt.ofNodes? ns)

/-- Takes the nodes of `elif` branches. -/
def Branch.ofNodes? : List Node → Option (List Branch)
  | [] => some []
  | .branch .elifStmt _ [test, body] :: ns => do
    return .mk (← Expr.ofNode? test) (← Body.ofNode? body) :: (← Branch.ofNodes? ns)
  | _ :: _ => none

/-- Takes the node of a body. -/
def Body.ofNode? : Node → Option Body
  | .branch .body span inner => do return .mk (← Stmt.ofNodes? inner) span
  | _ => none

/-- Takes the node of a body that may be missing. -/
def Body.ofOptional? : List Node → Option (Option Body)
  | [] => some none
  | [n] => (Body.ofNode? n).map some
  | _ :: _ :: _ => none

end

namespace FunDef

/-- Takes the node of a function. -/
def ofNode? : Node → Option FunDef
  | .branch .definition span [name, .branch .params _ params, body] => do
    return ⟨← Ident.ofNode? name, ← params.mapM Ident.ofNode?, ← Body.ofNode? body, span⟩
  | _ => none

end FunDef

/-- Why a source is not a program. -/
inductive ParseError where
  /-- There is nothing but white space. -/
  | empty
  /-- The source does not follow the grammar. -/
  | syntaxError (error : SyntaxError)
  /-- The tree of the source is not that of a program, which the grammar rules out. -/
  | malformedTree
  deriving DecidableEq, Repr, Inhabited

namespace Program

/-- Takes the node of a program. -/
def ofNode? : Node → Option Program
  | .branch .program span inner => do
    let funs ← (inner.filter (·.rule ≠ .endOfInput)).mapM FunDef.ofNode?
    return ⟨funs, span⟩
  | _ => none

/-- Takes the tree of a whole source. -/
def ofNodes? : List Node → Option Program
  | [n] => ofNode? n
  | _ => none

/-- **Reads a program.** -/
def parse (source : String) : Except ParseError Program :=
  let cs := source.toList
  if cs.all Text.isBlank then .error .empty
  else
    match (Pattern.rule .program).parse cs with
    | .error e => .error (.syntaxError e)
    | .ok nodes =>
      match ofNodes? nodes with
      | some p => .ok p
      | none => .error .malformedTree

end Program

end Offside
