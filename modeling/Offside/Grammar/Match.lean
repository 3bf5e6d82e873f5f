import Offside.Span
import Offside.Grammar.Cursor
import Offside.Grammar.Productions

/-!
# Matching

Running a pattern at a cursor gives an outcome of two parts that do not depend on each other's
history: the match, if there is one, and the record of the rules that failed on the way.  The first
part is all that matters for an accepted source; the second explains a rejected one.

Every rule is run with an allowance of nested rules.  No chain of rules can go deeper than eight for
each character without reading on, so the allowance computed from the source is never used up.
-/

namespace Offside

/-- A node of a syntax tree. -/
inductive Node where
  /-- An atomic rule, where it starts, and the text that it took. -/
  | leaf (rule : Rule) (start : Nat) (text : List Char)
  /-- Any other rule with the nodes inside it. -/
  | branch (rule : Rule) (span : Span) (inner : List Node)
  deriving Repr, Inhabited

namespace Node

/-- The rule of a node. -/
def rule : Node → Rule
  | leaf r _ _ => r
  | branch r _ _ => r

/-- Where the node stands. -/
def span : Node → Span
  | leaf _ start text => ⟨start, start + Text.byteSize text⟩
  | branch _ s _ => s

/-- The nodes directly inside. -/
def inner : Node → List Node
  | leaf _ _ _ => []
  | branch _ _ ns => ns

end Node

/-- A rule that failed at a place, with the failures inside it in order. -/
inductive Attempt where
  | mk (rule : Rule) (pos : Nat) (inner : List Attempt)
  deriving Repr, Inhabited

/-- What running a pattern gives. -/
structure Outcome where
  /-- The cursor after the match and the nodes of the match. -/
  result : Option (Cursor × List Node)
  /-- The rules that failed on the way, in order. -/
  tried : List Attempt := []
  deriving Inhabited

namespace Outcome

/-- No match. -/
def mismatch : Outcome := ⟨none, []⟩

/-- A match without nodes. -/
def reached (c : Cursor) : Outcome := ⟨some (c, []), []⟩

/-- A match without nodes, if the cursor could move. -/
def ofCursor? : Option Cursor → Outcome
  | none => mismatch
  | some c => reached c

/-- Goes on after a match. -/
def andThen (o : Outcome) (next : Cursor → Outcome) : Outcome :=
  match o.result with
  | none => o
  | some (c, ns) =>
    let o' := next c
    ⟨o'.result.map fun (d, ms) => (d, ns ++ ms), o.tried ++ o'.tried⟩

/-- Tries something else after a mismatch. -/
def orElse (o : Outcome) (other : Unit → Outcome) : Outcome :=
  match o.result with
  | some _ => o
  | none =>
    let o' := other ()
    ⟨o'.result, o.tried ++ o'.tried⟩

/-- Repeats a step while it matches, at most `n` times. -/
def iterate (step : Cursor → Outcome) : Nat → Cursor → Outcome
  | 0, c => reached c
  | n + 1, c => ((step c).andThen (iterate step n)).orElse fun _ => reached c

end Outcome

namespace Pattern

open Outcome

/-- Runs a pattern at a cursor, where `call` runs the rules inside it. -/
def run (call : Rule → Cursor → Outcome) : Pattern → Cursor → Outcome
  | text cs, c => ofCursor? (c.eat? cs)
  | one k, c => ofCursor? (c.eatOne? k)
  | many k, c => reached (c.eatMany k)
  | stop, c => if c.rest.isEmpty then reached c else mismatch
  | seq p q, c => (p.run call c).andThen (q.run call)
  | alt p q, c => (p.run call c).orElse fun _ => q.run call c
  | star p, c => iterate (p.run call) (c.rest.length + 1) c
  | ahead p, c =>
    let o := p.run call c
    ⟨o.result.map fun _ => (c, []), o.tried⟩
  | notAhead p, c => if (p.run call c).result.isSome then mismatch else reached c
  | rule r, c => call r c
  | push p, c =>
    let o := p.run call c
    ⟨o.result.map fun (d, ns) => (d.push (c.textTo d), ns), o.tried⟩
  | peekAll, c => ofCursor? (c.eat? c.indents.flatten)
  | drop, c => ofCursor? c.drop?

end Pattern

namespace Rule

/-- Turns the outcome of a rule's pattern into the outcome of the rule: a match becomes one node, and
a mismatch is recorded.  What happened inside an atomic rule is forgotten. -/
def close (r : Rule) (c : Cursor) (o : Outcome) : Outcome :=
  match o.result with
  | some (d, inner) =>
    if r.isAtomic then ⟨some (d, [.leaf r c.pos (c.textTo d)]), []⟩
    else ⟨some (d, [.branch r ⟨c.pos, d.pos⟩ inner]), o.tried⟩
  | none => ⟨none, [⟨r, c.pos, if r.isAtomic then [] else o.tried⟩]⟩

/-- Runs a rule with an allowance of nested rules. -/
def run : Nat → Rule → Cursor → Outcome
  | 0, _, _ => .mismatch
  | n + 1, r, c => r.close c (r.pattern.run (run n) c)

end Rule

namespace Pattern

/-- The allowance of nested rules that no match of a source of `n` characters uses up. -/
def allowance (n : Nat) : Nat :=
  8 * (n + 1)

/-- Matches a pattern at the start of a source. -/
def matchStart (p : Pattern) (source : List Char) : Outcome :=
  p.run (Rule.run (allowance source.length)) (.start source)

end Pattern

end Offside
