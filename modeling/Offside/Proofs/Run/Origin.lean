import Offside.Run
import Offside.Proofs.Run.Scopes

/-!
# Where a run of a program stops

A program that is run to no end did not load, or its `main` could not be called, or its output could
not be flushed, or it stopped at a point to which the call of `main` leads.  Only the first and the
last of these are blamed on a span.

* programs that do not load: `Globals.extend_eq_failure`;
* **where a run stops**: `Program.stop_origin`, `Program.failure_item`;
* what can fail without a span: `Program.cause_of_span_none`.
-/

namespace Offside

/-- A program that does not load is blamed on the name of a function or a parameter. -/
theorem Globals.extend_eq_failure {g g' : Globals} {fs : List FunDef} {failure : Failure}
    (h : g.extend fs = (g', some failure)) : ∃ f ∈ fs, ∃ x, (x = f.name ∨ x ∈ f.params) ∧
      failure = ⟨.reserved x.name, some x.span⟩ := by
  induction fs generalizing g with
  | nil => cases h
  | cons f fs ih =>
    unfold Globals.extend at h
    split at h
    · next x hoffence =>
      cases h
      refine ⟨f, List.mem_cons_self .., x, ?_, rfl⟩
      unfold Globals.offence? at hoffence
      split at hoffence
      · cases hoffence
        exact Or.inl rfl
      · exact Or.inr (List.mem_of_find?_eq_some hoffence)
    · obtain ⟨f', hf', hx⟩ := ih h
      exact ⟨f', List.mem_cons_of_mem f hf', hx⟩

/-- The failure with which a run ends, if it fails. -/
def Answer.failure? : Answer → Option Failure
  | (.error (.failed failure), _) => some failure
  | _ => none

theorem Answer.failure?_eq_some_iff {r : Answer} {failure : Failure} :
    r.failure? = some failure ↔ ∃ m, r = (.error (.failed failure), m) := by
  rcases r with ⟨(failure' | text) | v, m⟩
  · simp [Answer.failure?]
  · simp [Answer.failure?]
  · simp [Answer.failure?]
  · simp [Answer.failure?]

/-- A reason to stop that is not a failure without a span, and not the bound on nested calls. -/
def Stop.Placed : Stop → Prop
  | .failed failure => failure.span ≠ none
  | .invalidInteger _ => True
  | .tooDeep => False

/-- Flushing reports failures without a span only. -/
theorem Answer.of_flush {r : Answer} {m : Machine} {why : Stop} (h : r.flush = (.error why, m))
    (hwhy : why.Placed) : r = (.error why, m) := by
  unfold Answer.flush at h
  split at h
  · exact h
  · exact h
  · split at h
    · exact h
    · cases h
      exact absurd rfl hwhy

/-- A call of `main` stops for such a reason only at a point to which it leads. -/
theorem Globals.exists_raises_of_callMain {g : Globals} {depth : Nat} {m m' : Machine} {why : Stop}
    (h : g.callMain depth m = (.error why, m')) (hwhy : why.Placed) :
    ∃ f ∈ g.funs, ∃ d m₁ q, Reaches g (.start f d [] m₁) q ∧ q.Raises g why := by
  unfold Globals.callMain at h
  split at h
  · next f hmain =>
    rcases Function.apply_eq_error h with ⟨b, cause, rfl, -, rfl⟩ | ⟨f', rfl, -, rfl⟩ |
      ⟨f', rfl, -, hinvoke⟩
    · exact absurd rfl hwhy
    · exact absurd rfl hwhy
    · have hdeep : why ≠ .tooDeep := by
        rintro rfl
        exact hwhy
      obtain ⟨d, q, -, hreach, hraises⟩ := exists_raises_of_invoke hinvoke hdeep
      exact ⟨f', (Globals.get?_eq_user hmain).1, d, _, q, hreach, hraises⟩
  · cases h
    exact absurd rfl hwhy
  · cases h
    exact absurd rfl hwhy

theorem FunDef.mem_items_of_body {p : Program} {f : FunDef} {i : Item} (hf : f ∈ p.funs)
    (hi : i ∈ f.body.items) : i ∈ p.items :=
  List.mem_flatMap.mpr ⟨f, hf, by simp [FunDef.items, hi]⟩

/-- **Where a run stops:** at the name of a function or a parameter that is taken, or at a point that
runs code of the program. -/
theorem Program.stop_origin {p : Program} {depth : Nat} {m m' : Machine} {why : Stop}
    (h : p.interpret depth m = (.error why, m')) (hwhy : why.Placed) :
    (∃ x, .ident x ∈ p.items ∧ why = .failed ⟨.reserved x.name, some x.span⟩) ∨
    ∃ (g : Globals) (q : Point), Globals.load p = .ok g ∧ q.Raises g why ∧
      ∀ i ∈ q.code.items, i ∈ p.items := by
  unfold Program.interpret at h
  rcases hextend : Globals.extend {} p.funs with ⟨g, offence⟩
  rw [hextend] at h
  cases offence with
  | some failure =>
    obtain ⟨f, hf, x, hx, rfl⟩ := Globals.extend_eq_failure hextend
    cases h
    refine Or.inl ⟨x, List.mem_flatMap.mpr ⟨f, hf, ?_⟩, rfl⟩
    rcases hx with rfl | hx
    · simp [FunDef.items]
    · simp [FunDef.items, hx]
  | none =>
    have hload : Globals.load p = .ok g := by
      unfold Globals.load
      rw [hextend]
    obtain ⟨-, hfuns⟩ := Globals.proper_of_load hload
    obtain ⟨f, hf, d, m₁, q, hreach, hraises⟩ :=
      Globals.exists_raises_of_callMain (Answer.of_flush h hwhy) hwhy
    have hq := hreach.inProgram hf
    refine Or.inr ⟨g, q, hload, hraises, fun i hi => ?_⟩
    exact FunDef.mem_items_of_body (hfuns ▸ hq.function) (hq.code i hi)

/-- **The span of a failure is that of an item of the program.** -/
theorem Program.failure_item {p : Program} {depth : Nat} {m : Machine} {cause : Cause} {span : Span}
    (h : (p.interpret depth m).failure? = some ⟨cause, some span⟩) :
    ∃ i ∈ p.items, i.span = span := by
  obtain ⟨m', h⟩ := Answer.failure?_eq_some_iff.mp h
  rcases Program.stop_origin h (by simp [Stop.Placed]) with ⟨x, hx, hwhy⟩ |
    ⟨g, q, -, hraises, hcode⟩
  · cases hwhy
    exact ⟨.ident x, hx, rfl⟩
  · obtain ⟨i, hi, hspan⟩ := hraises.exists_item
    cases hspan
    exact ⟨i, hcode i hi, rfl⟩

/-! ### Failures without a span -/

theorem Globals.cause_of_span_none {g : Globals} {depth : Nat} {m m' : Machine} {cause : Cause}
    (h : g.callMain depth m = (.error (.failed ⟨cause, none⟩), m')) :
    cause = .noMain ∨ cause = .mainNotAFunction ∨ ∃ name expected got,
      cause = .arity name expected got := by
  unfold Globals.callMain at h
  split at h
  · next f hmain =>
    rcases Function.apply_eq_error h with ⟨b, c, rfl, -, -⟩ | ⟨f', -, -, hwhy⟩ |
      ⟨f', rfl, -, hinvoke⟩
    · have hreserved := b.isReserved_name.1
      rw [Globals.get?_eq_builtin hmain] at hreserved
      exact absurd hreserved (by decide)
    · cases hwhy
      exact Or.inr (Or.inr ⟨_, _, _, rfl⟩)
    · obtain ⟨d, q, -, -, hraises⟩ := exists_raises_of_invoke hinvoke (by simp)
      obtain ⟨i, -, hspan⟩ := hraises.exists_item
      cases hspan
  · cases h
    exact Or.inr (Or.inl rfl)
  · cases h
    exact Or.inl rfl

/-- **What can fail without a span:** the call of `main`, and flushing the output. -/
theorem Program.cause_of_span_none {p : Program} {depth : Nat} {m m' : Machine} {cause : Cause}
    (h : p.interpret depth m = (.error (.failed ⟨cause, none⟩), m')) :
    cause = .noMain ∨ cause = .mainNotAFunction ∨
      (∃ name expected got, cause = .arity name expected got) ∨ m'.console.flush = .error cause := by
  unfold Program.interpret at h
  rcases hextend : Globals.extend {} p.funs with ⟨g, offence⟩
  rw [hextend] at h
  cases offence with
  | some failure =>
    obtain ⟨f, hf, x, hx, rfl⟩ := Globals.extend_eq_failure hextend
    cases h
  | none =>
    simp only at h
    generalize hmain : g.callMain depth _ = a at h
    unfold Answer.flush at h
    split at h
    · cases h
    · cases h
    · split at h
      · cases h
        rcases Globals.cause_of_span_none hmain with h | h | h
        · exact Or.inl h
        · exact Or.inr (Or.inl h)
        · exact Or.inr (Or.inr (Or.inl h))
      · next hflush =>
        cases h
        exact Or.inr (Or.inr (Or.inr hflush))

end Offside
