import Offside.Decimal
import Offside.Template
import Offside.Run.Exec

/-!
# Evaluation

Expressions and statements are run by recursion on their structure.  Only the call of a function of
the program leads back to other code; it is left to a parameter, so that the depth of calls is
counted in one place.

The value of each statement is recorded as the last produced value, and a body yields what was
recorded last.  Conditions are not recorded.
-/

namespace Offside

/-- How functions of the program are run on evaluated arguments. -/
abbrev Invoke := FunDef → List Value → Machine → Answer

/-- Calls a function on evaluated arguments. -/
def Function.apply (invoke : Invoke) (f : Function) (args : List Value) (m : Machine) : Answer :=
  let m := m.record (.calling f.name args)
  match f with
  | .builtin b =>
    match b.call args m.console with
    | (.ok v, c) => (.ok v, { m with console := c })
    | (.error cause, c) => (.error (.failed ⟨cause, none⟩), { m with console := c })
  | .user f =>
    if f.arity = args.length then invoke f args m
    else (.error (.failed ⟨.arity f.name.name f.arity args.length, none⟩), m)

namespace StrLit

/-- The text of a literal in a scope, where templates are filled. -/
def eval (lit : StrLit) (s : Scope) : Except Cause String :=
  if lit.isTemplate then Template.substitute s.valueOf? lit.content lit.sourceForm
  else .ok lit.content

end StrLit

namespace Eval

variable (g : Globals) (invoke : Invoke)

/-- The function to call under a name. -/
def callee (ident : Ident) (site : Span) : Exec Function := do
  Exec.ofExcept (Scope.callee ⟨g, ← Exec.locals⟩ ident site)

/-- The value of a name. -/
def name (ident : Ident) : Exec Value := do
  Exec.ofExcept (Scope.value ⟨g, ← Exec.locals⟩ ident)

/-- Assigns a variable. -/
def assign (target : Ident) (v : Value) : Exec Unit := do
  Exec.setLocals (← Exec.ofExcept (Scope.assign ⟨g, ← Exec.locals⟩ target v))

/-- The value of a string literal. -/
def string (lit : StrLit) (span : Span) : Exec Value := do
  match lit.eval ⟨g, ← Exec.locals⟩ with
  | .ok text => pure (.str text)
  | .error cause => Exec.stop (.failed ⟨cause, some span⟩)

/-- The value of a number literal. -/
def number (kind : NumberKind) (text : String) (span : Span) : Exec Value :=
  match kind with
  | .dec =>
    match Decimal.literal? text with
    | some i => pure (.int i)
    | none => Exec.stop (.invalidInteger text)
  | kind => Exec.stop (.failed ⟨.notImplemented kind.describe, some span⟩)

mutual

/-- Evaluates an expression.  The function of a call is looked up before its arguments are
evaluated, from left to right. -/
def expr : Expr → Exec Value
  | .call f args span => do
    let f ← callee g f span
    let args ← exprs args
    Exec.callAt span (f.apply invoke args)
  | .assign target value _ => do
    let v ← expr value
    assign g target v
    return v
  | .name ident _ => name g ident
  | .string lit span => string g lit span
  | .number kind text span => number kind text span

/-- Evaluates expressions from left to right. -/
def exprs : List Expr → Exec (List Value)
  | [] => return []
  | e :: es => do
    let v ← expr e
    let vs ← exprs es
    return v :: vs

end

mutual

/-- Runs a statement. -/
def stmt : Stmt → Exec Value
  | .line e span => do
    Exec.record (.executing span)
    expr g invoke e
  | .block b span => do
    Exec.record (.executing span)
    body b
  | .cond bs otherwise span => do
    Exec.record (.executing span)
    branches bs (orElse otherwise)

/-- Runs the body of the first branch whose condition holds, or else the code given. -/
def branches : List Branch → Exec Value → Exec Value
  | [], otherwise => otherwise
  | .mk test b :: bs, otherwise => do
    let v ← expr g invoke test
    if v.truth then body b else branches bs otherwise

/-- Runs an `else` body; without one the last produced value stays. -/
def orElse : Option Body → Exec Value
  | none => Exec.last
  | some b => body b

/-- Runs statements in order and records the value of each. -/
def stmts : List Stmt → Exec Value
  | [] => Exec.last
  | s :: ss => do
    let v ← stmt s
    Exec.setLast v
    stmts ss

/-- Runs a body. -/
def body : Body → Exec Value
  | .mk ss _ => stmts ss

end

end Eval

/-- Runs a function of the program on evaluated arguments, with calls nested at most `depth` deep. -/
def invoke (g : Globals) : (depth : Nat) → Invoke
  | 0, _, _, m => (.error .tooDeep, m)
  | depth + 1, f, args, m =>
    (Eval.body g (invoke g depth) f.body).answer (.fresh f.params args) m

end Offside
