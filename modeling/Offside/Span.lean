/-!
# Spans

A span names a section of a source text by the byte offsets of its two ends.
-/

namespace Offside

/-- A section of the source, from the byte offset `start` up to but not including `stop`. -/
structure Span where
  start : Nat
  stop : Nat
  deriving DecidableEq, Repr, Inhabited

namespace Span

/-- The empty span at the start of a source. -/
def initial : Span := ⟨0, 0⟩

/-- The span between two offsets, if they are in order. -/
def ofBounds? (start stop : Nat) : Option Span :=
  if start ≤ stop then some ⟨start, stop⟩ else none

/-- The least span that covers both. -/
def merge (a b : Span) : Span :=
  ⟨min a.start b.start, max a.stop b.stop⟩

/-- The span moved `n` bytes towards the end of the source. -/
def shift (n : Nat) (s : Span) : Span :=
  ⟨s.start + n, s.stop + n⟩

/-- The two offsets with dots between them. -/
def describe (s : Span) : String :=
  s.start.repr ++ ".." ++ s.stop.repr

end Span

end Offside
