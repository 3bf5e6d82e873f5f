import Offside.Syntax
import Offside.Builtin

/-!
# Names and what they mean

The global names of a program are the predefined ones and its own functions; they are fixed when the
program is loaded.  Each call of a function has variables of its own, among them the last produced
value under the name `_`.  Variables are looked up before globals.
-/

namespace Offside

/-- Something that can be called. -/
inductive Function where
  | builtin (b : Builtin)
  | user (f : FunDef)
  deriving Inhabited

namespace Function

/-- The name of a function. -/
def name : Function → String
  | builtin b => b.name
  | user f => f.name.name

/-- How a function is shown. -/
def inspect (f : Function) : String :=
  "<function " ++ f.name ++ ">"

end Function

/-- What a name can mean. -/
inductive Binding where
  | value (v : Value)
  | function (f : Function)
  deriving Inhabited

/-! ### Globals -/

/-- The functions of a loaded program, in source order. -/
structure Globals where
  funs : List FunDef := []
  deriving Inhabited

namespace Globals

/-- The function of the program with that name. -/
def find? (g : Globals) (name : String) : Option FunDef :=
  g.funs.find? (·.name.name == name)

/-- What a global name means. -/
def get? (g : Globals) (name : String) : Option Binding :=
  match Builtin.named? name with
  | some b => some (.function (.builtin b))
  | none =>
    match predefined? name with
    | some v => some (.value v)
    | none => (g.find? name).map fun f => .function (.user f)

/-- Is the name that of a function? -/
def isFunction (g : Globals) (name : String) : Bool :=
  match g.get? name with
  | some (.function _) => true
  | _ => false

/-- All global names. -/
def names (g : Globals) : List String :=
  Builtin.all.map Builtin.name ++ ["true", "false", "_"] ++ g.funs.map (·.name.name)

/-- The first name of a definition that is taken, if there is one: the name of the function, or else
a parameter. -/
def offence? (g : Globals) (f : FunDef) : Option Ident :=
  if isReserved f.name.name || (g.find? f.name.name).isSome then some f.name
  else f.params.find? fun p => isReserved p.name

/-- Adds functions up to the first offence, and reports that. -/
def extend (g : Globals) : List FunDef → Globals × Option Failure
  | [] => (g, none)
  | f :: fs =>
    match g.offence? f with
    | some name => (g, some (Located.blame ⟨.reserved name.name, none⟩ name.span))
    | none => extend ⟨g.funs ++ [f]⟩ fs

/-- **Loads a program.**  No name may be defined twice, and no predefined name at all. -/
def load (p : Program) : Except Failure Globals :=
  match extend {} p.funs with
  | (g, none) => .ok g
  | (_, some failure) => .error failure

end Globals

/-! ### Variables -/

/-- The variables of one call: names with their values, each name once. -/
abbrev Locals := List (String × Value)

namespace Locals

/-- The name of the last produced value. -/
def lastName : String := "_"

/-- The value of a variable. -/
def get? (ls : Locals) (name : String) : Option Value :=
  (ls.find? (·.1 == name)).map Prod.snd

/-- Sets a variable, which may be new. -/
def insert (ls : Locals) (name : String) (v : Value) : Locals :=
  match ls with
  | [] => [(name, v)]
  | (n, w) :: rest => if n = name then (n, v) :: rest else (n, w) :: Locals.insert rest name v

/-- Sets variables one after the other. -/
def insertAll (ls : Locals) (bindings : List (String × Value)) : Locals :=
  bindings.foldl (fun ls (n, v) => ls.insert n v) ls

/-- The variables at the start of a call: the first argument as the last produced value, and then the
parameters. -/
def fresh (params : List Ident) (args : List Value) : Locals :=
  insertAll [(lastName, args.headD .empty)] ((params.map (·.name)).zip args)

/-- The last produced value. -/
def last (ls : Locals) : Value :=
  (ls.get? lastName).getD .empty

/-- Records the last produced value. -/
def setLast (ls : Locals) (v : Value) : Locals :=
  ls.insert lastName v

@[simp] theorem get?_insert_self (ls : Locals) (name : String) (v : Value) :
    (ls.insert name v).get? name = some v := by
  induction ls with
  | nil => simp [insert, get?]
  | cons b rest ih =>
    obtain ⟨n, w⟩ := b
    by_cases h : n = name
    · simp [insert, get?, h]
    · simpa [insert, get?, h] using ih

theorem get?_insert_of_ne (ls : Locals) {name other : String} (v : Value) (h : other ≠ name) :
    (ls.insert name v).get? other = ls.get? other := by
  induction ls with
  | nil => simp [insert, get?, Ne.symm h]
  | cons b rest ih =>
    obtain ⟨n, w⟩ := b
    by_cases hn : n = name
    · subst hn
      simp [insert, get?, Ne.symm h]
    · by_cases ho : n = other
      · subst ho
        simp [insert, get?, hn]
      · simpa [insert, get?, hn, ho] using ih

end Locals

/-! ### Scopes -/

/-- The names that a running call can use. -/
structure Scope where
  globals : Globals := {}
  locals : Locals := []
  deriving Inhabited

namespace Scope

/-- What a name means: a variable first, and else a global name. -/
def get? (s : Scope) (name : String) : Option Binding :=
  match s.locals.get? name with
  | some v => some (.value v)
  | none => s.globals.get? name

/-- The value of a name, if it has one. -/
def valueOf? (s : Scope) (name : String) : Option Value :=
  match s.get? name with
  | some (.value v) => some v
  | _ => none

/-- The value of an identifier that must have one. -/
def value (s : Scope) (ident : Ident) : Except Failure Value :=
  match s.get? ident.name with
  | some (.value v) => .ok v
  | some (.function _) => .error ⟨.notAValue ident.name, some ident.span⟩
  | none => .error ⟨.undefinedName ident.name, some ident.span⟩

/-- The function to call under a name that must have one; `site` is the call. -/
def callee (s : Scope) (ident : Ident) (site : Span) : Except Failure Function :=
  match s.get? ident.name with
  | some (.function f) => .ok f
  | some (.value _) => .error ⟨.notCallable ident.name, some site⟩
  | none => .error ⟨.undefinedFunction ident.name, some site⟩

/-- Is the name one that may not be assigned?  Predefined names never may, and the name of a function
of the program only where a variable hides it. -/
def isProtected (s : Scope) (name : String) : Bool :=
  isReserved name || (s.globals.isFunction name && (s.locals.get? name).isNone)

/-- The variables after an assignment. -/
def assign (s : Scope) (ident : Ident) (v : Value) : Except Failure Locals :=
  if s.isProtected ident.name then .error ⟨.reserved ident.name, some ident.span⟩
  else .ok (s.locals.insert ident.name v)

end Scope

end Offside
