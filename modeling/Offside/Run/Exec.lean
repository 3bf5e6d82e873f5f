import Offside.Scope

/-!
# Running code

Code runs on the variables of its call and on a machine: the console, and a log of what happens if
one is kept.  It either yields a value, or stops for a reason.  What was read and written stays read
and written when code stops; the variables are gone.
-/

namespace Offside

/-- Something that the log of a run mentions. -/
inductive Event where
  /-- A function is registered. -/
  | defining (name : String) (arity : Nat)
  /-- A function is called. -/
  | calling (name : String) (args : List Value)
  /-- A statement is about to run. -/
  | executing (span : Span)
  deriving DecidableEq, Repr, Inhabited

namespace Event

/-- The line of the log, with its level first. -/
def describe : Event → String
  | defining name arity => "debug defining " ++ name ++ "(" ++ arity.repr ++ ")"
  | calling name args =>
    "debug calling " ++ name ++ "([" ++ String.intercalate ", " (args.map Value.inspect) ++ "])"
  | executing span => "trace executing statement at " ++ span.describe

end Event

/-- The console of a run, and its log if one is kept. -/
structure Machine where
  console : Console := {}
  log : Option (Array Event) := none
  deriving DecidableEq, Repr, Inhabited

namespace Machine

/-- Adds to the log, if one is kept. -/
def record (m : Machine) (e : Event) : Machine :=
  { m with log := m.log.map (·.push e) }

end Machine

/-- Why code stops before its end. -/
inductive Stop where
  /-- The program fails. -/
  | failed (failure : Failure)
  /-- A decimal literal is not a number, which the grammar rules out. -/
  | invalidInteger (text : String)
  /-- Calls are nested deeper than allowed for the run. -/
  | tooDeep
  deriving DecidableEq, Repr, Inhabited

/-- What a call gives: a value or a reason to stop, and the machine after it. -/
abbrev Answer := Except Stop Value × Machine

/-- What a piece of code gives. -/
inductive Step (α : Type) where
  /-- It ran to its end. -/
  | done (value : α) (locals : Locals) (machine : Machine)
  /-- It stopped. -/
  | stopped (why : Stop) (machine : Machine)
  deriving Inhabited

/-- Code that yields an `α`. -/
def Exec (α : Type) := Locals → Machine → Step α

namespace Exec

variable {α β : Type}

/-- Yields a value and does nothing. -/
protected def pure (a : α) : Exec α := fun ls m => .done a ls m

/-- Runs code, and then the code that its value asks for. -/
protected def bind (x : Exec α) (f : α → Exec β) : Exec β := fun ls m =>
  match x ls m with
  | .done a ls m => f a ls m
  | .stopped why m => .stopped why m

instance : Monad Exec where
  pure := Exec.pure
  bind := Exec.bind

theorem bind_of_done {x : Exec α} {ls ls' : Locals} {m m' : Machine} {a : α}
    (h : x ls m = .done a ls' m') (f : α → Exec β) : (x >>= f) ls m = f a ls' m' := by
  change Exec.bind x f ls m = _
  rw [Exec.bind, h]

theorem bind_of_stopped {x : Exec α} {ls : Locals} {m m' : Machine} {why : Stop}
    (h : x ls m = .stopped why m') (f : α → Exec β) : (x >>= f) ls m = .stopped why m' := by
  change Exec.bind x f ls m = _
  rw [Exec.bind, h]

/-- Stops. -/
def stop (why : Stop) : Exec α := fun _ m => .stopped why m

/-- Yields what was computed, or fails. -/
def ofExcept : Except Failure α → Exec α
  | .ok a => pure a
  | .error failure => stop (.failed failure)

/-- Yields the variables. -/
def locals : Exec Locals := fun ls m => .done ls ls m

/-- Replaces the variables. -/
def setLocals (ls : Locals) : Exec Unit := fun _ m => .done () ls m

/-- Adds to the log. -/
def record (e : Event) : Exec Unit := fun ls m => .done () ls (m.record e)

/-- Yields the last produced value. -/
def last : Exec Value := fun ls m => .done ls.last ls m

/-- Records the last produced value. -/
def setLast (v : Value) : Exec Unit := fun ls m => .done () (ls.setLast v) m

/-- Makes a call, which has its own variables.  A failure without a span is blamed on `site`. -/
def callAt (site : Span) (f : Machine → Answer) : Exec Value := fun ls m =>
  match f m with
  | (.ok v, m) => .done v ls m
  | (.error (.failed failure), m) => .stopped (.failed (failure.orSpan site)) m
  | (.error why, m) => .stopped why m

/-- Runs code on variables of its own, as the body of a call. -/
def answer (x : Exec Value) (ls : Locals) (m : Machine) : Answer :=
  match x ls m with
  | .done v _ m => (.ok v, m)
  | .stopped why m => (.error why, m)

instance : LawfulMonad Exec :=
  LawfulMonad.mk' Exec
    (fun x => by
      funext ls m
      change (match x ls m with
        | .done a ls m => .done a ls m
        | .stopped why m => .stopped why m) = x ls m
      cases x ls m <;> rfl)
    (fun _ _ => rfl)
    (fun x f g => by
      funext ls m
      change (match (match x ls m with
          | .done a ls m => f a ls m
          | .stopped why m => .stopped why m) with
        | .done a ls m => g a ls m
        | .stopped why m => .stopped why m) =
        (match x ls m with
        | .done a ls m => (match f a ls m with
          | .done a ls m => g a ls m
          | .stopped why m => .stopped why m)
        | .stopped why m => .stopped why m)
      cases x ls m <;> rfl)

end Exec

end Offside
