import Offside.Grammar.Match

/-!
# Syntax errors

A rejected source is explained by the rules that failed at the farthest place.  The record of failed
rules is read in order; a rule that fails where one rule inside it has just failed adds nothing, and
one that fails where several inside it have failed stands for all of them.
-/

namespace Offside

/-- The farthest place at which a rule failed, and the rules that count as expected there. -/
structure Frontier where
  pos : Nat
  rules : List Rule
  deriving DecidableEq, Repr, Inhabited

namespace Frontier

/-- Before any rule has failed. -/
def initial : Frontier := ⟨0, []⟩

/-- Number of rules expected at a place. -/
def countAt (f : Frontier) (p : Nat) : Nat :=
  if f.pos = p then f.rules.length else 0

/-- A rule fails at `p`, where `kept` rules were expected before it was tried. -/
def fail (f : Frontier) (r : Rule) (p kept : Nat) : Frontier :=
  if p = f.pos then ⟨p, f.rules.take kept ++ [r]⟩
  else if f.pos < p then ⟨p, [r]⟩
  else f

end Frontier

mutual

/-- Takes a failed rule, and first those inside it, into account. -/
def Attempt.mark : Attempt → Frontier → Frontier
  | .mk r p inner, f =>
    let before := f.countAt p
    let g := Attempt.markAll inner f
    if g.countAt p = before + 1 then g else g.fail r p before

/-- Takes failed rules into account in order. -/
def Attempt.markAll : List Attempt → Frontier → Frontier
  | [], f => f
  | a :: as, f => Attempt.markAll as (a.mark f)

end

/-- Why a source was rejected: a place, and the rules expected there in the order of messages. -/
structure SyntaxError where
  offset : Nat
  expected : List Rule
  deriving DecidableEq, Repr, Inhabited

namespace SyntaxError

/-- The error that a record of failed rules amounts to. -/
def ofAttempts (tried : List Attempt) : SyntaxError :=
  let f := Attempt.markAll tried .initial
  ⟨f.pos, Rule.all.filter (f.rules.contains ·)⟩

/-- Joins descriptions as in "this, that, or another". -/
def enumerate : List String → String
  | [] => ""
  | [a] => a
  | [a, b] => a ++ " or " ++ b
  | as => String.join (as.dropLast.map (· ++ ", ")) ++ "or " ++ as.getLastD ""

/-- The error in words. -/
def message (e : SyntaxError) : String :=
  match e.expected with
  | [] => "unknown parsing error"
  | rules => "expected " ++ enumerate (rules.map Rule.describe)

end SyntaxError

namespace Pattern

/-- Matches a pattern at the start of a source, giving the nodes or the error. -/
def parse (p : Pattern) (source : List Char) : Except SyntaxError (List Node) :=
  let o := p.matchStart source
  match o.result with
  | some (_, nodes) => .ok nodes
  | none => .error (.ofAttempts o.tried)

end Pattern

end Offside
