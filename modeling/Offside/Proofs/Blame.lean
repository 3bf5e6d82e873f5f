import Offside.Proofs.Places
import Offside.Proofs.Run.Origin

/-!
# Failures point at what they blame

When a parsed program fails with a span, the part of the source at that span is what the failure is
about: the name, the literal, or the whole call of the function that failed.

* causes that a call of a function can have: `Cause.FailsIn`, `Builtin.failsIn_of_call`;
* what a failure may be blamed on: `Program.Blames`;
* a failure that arises at a point of a run: `Point.Raises.blames`;
* **a failure of a parsed program**: `Program.slice_blames`.
-/

namespace Offside

open Text

/-! ### Causes of failing calls -/

/-- The cause can be that of a failing call of the function with this name. -/
def Cause.FailsIn (name : String) : Cause → Prop
  | .arity f _ _ => f = name
  | .tooFewOperands f _ => f = name
  | .arithmetic f _ => f = name
  | .unsupportedComparison f _ _ => f = name
  | .divisionByZero => name = "div"
  | .noLength _ => name = "length"
  | .io what => (name = "print" ∧ what = "I/O error: sink full") ∨
      (name = "input" ∧ (what = "EOF when reading a line" ∨
        what = "I/O error: stream did not contain valid UTF-8"))
  | _ => False

namespace Arith

variable {op : Arith} {cause : Cause}

theorem failsIn_of_operand {v : Value} (h : op.operand v = .error cause) : cause.FailsIn op.name := by
  unfold operand at h
  split at h
  · cases h
  · cases h
    rfl

theorem failsIn_of_replicate {s : String} {count : Int} (h : replicate s count = .error cause) :
    cause.FailsIn "mul" := by
  unfold replicate at h
  split at h
  · cases h
  · split at h
    · cases h
    · cases h
      rfl

theorem failsIn_of_times {a v : Value} (h : times a v = .error cause) : cause.FailsIn "mul" := by
  unfold times at h
  split at h
  -- A string is repeated, whichever of the two factors it is.
  case h_1 | h_2 =>
    split at h
    · exact failsIn_of_replicate h
    · cases h
      rfl
  · cases hx : mul.operand a with
    | error c =>
      rw [hx] at h
      cases h
      exact failsIn_of_operand hx
    | ok x =>
      rw [hx] at h
      cases hy : mul.operand v with
      | error c =>
        rw [hy] at h
        cases h
        exact failsIn_of_operand hy
      | ok y =>
        rw [hy] at h
        cases h

theorem failsIn_of_product {args : List Value} {acc : Value}
    (h : args.foldlM times acc = .error cause) : cause.FailsIn "mul" := by
  induction args generalizing acc with
  | nil => cases h
  | cons v args ih =>
    rw [List.foldlM_cons] at h
    cases hv : times acc v with
    | error c =>
      rw [hv] at h
      cases h
      exact failsIn_of_times hv
    | ok w =>
      rw [hv] at h
      exact ih h

theorem failsIn_of_operands {args : List Value} (h : args.mapM op.operand = .error cause) :
    cause.FailsIn op.name := by
  induction args generalizing cause with
  | nil => cases h
  | cons v args ih =>
    rw [List.mapM_cons] at h
    cases hv : op.operand v with
    | error c =>
      rw [hv] at h
      cases h
      exact failsIn_of_operand hv
    | ok x =>
      rw [hv] at h
      cases hargs : args.mapM op.operand with
      | error c =>
        rw [hargs] at h
        cases h
        exact ih hargs
      | ok xs =>
        rw [hargs] at h
        cases h

/-- An arithmetic function fails under its own name. -/
theorem failsIn_of_apply {args : List Value} (h : op.apply args = .error cause) :
    cause.FailsIn op.name := by
  unfold apply at h
  split at h
  · next first second others =>
    split at h
    · exact failsIn_of_product h
    · next hmul =>
      cases hx : op.operand first with
      | error c =>
        rw [hx] at h
        cases h
        exact failsIn_of_operand hx
      | ok x =>
        rw [hx] at h
        cases hxs : (second :: others).mapM op.operand with
        | error c =>
          simp only [hxs] at h
          cases h
          exact failsIn_of_operands hxs
        | ok xs =>
          simp only [hxs] at h
          cases op with
          | div =>
            change quotient x xs = .error cause at h
            unfold quotient at h
            simp only at h
            split at h
            · cases h
              rfl
            · cases h
          | add => cases h
          | sub => cases h
          | mul => exact absurd rfl hmul
  · cases h
    rfl

end Arith

/-- **A predefined function fails under its own name.** -/
theorem Builtin.failsIn_of_call {b : Builtin} {args : List Value} {c : Console} {cause : Cause}
    (h : (b.call args c).1 = .error cause) : cause.FailsIn b.name := by
  unfold Builtin.call at h
  split at h
  · unfold doPrint Console.write at h
    simp only at h
    split at h
    · cases h
    · cases h
      exact Or.inl ⟨rfl, rfl⟩
  · exact Arith.failsIn_of_apply h
  · unfold doInput Console.readLine at h
    simp only at h
    split at h
    · cases h
      exact Or.inr ⟨rfl, Or.inl rfl⟩
    · unfold Console.decodeLine at h
      simp only at h
      split at h
      · cases h
        exact Or.inr ⟨rfl, Or.inr rfl⟩
      · cases h
  · cases h
    rfl
  · unfold Value.length at h
    split at h
    · cases h
    · cases h
      rfl
  · cases h
    rfl
  · cases h
  · unfold Comparison.apply at h
    split at h
    · cases h
    · cases h
      rfl
  · cases h
    rfl
  · cases h
    rfl

/-! ### What failures are blamed on -/

/-- The text at the span is that of a call in the program, of the function with this name: it starts
with the name and ends with a closing parenthesis. -/
structure Program.CallAt (p : Program) (name : String) (span : Span) (t : List Char) : Prop where
  inProgram : ∃ x args, x.name = name ∧ .expr (.call x args span) ∈ p.items ∧
    Expr.WrittenAt span.start t (.call x args span)
  starts : name.toList <+: t
  ends : t.getLast? = some ')'

/-- **What a failure is blamed on:** the text at the span of the failure has to be this. -/
def Program.Blames (p : Program) (span : Span) (t : List Char) : Cause → Prop
  | .undefinedName name | .notAValue name | .reserved name => t = name.toList
  | .undefinedFunction name | .notCallable name => p.CallAt name span t
  | .formatKey _ literal | .formatSyntax _ literal => t = literal.toList
  | .notImplemented what => ∃ κ : NumberKind, κ ≠ .dec ∧ what = κ.describe ∧ κ.Spells t
  | cause => ∃ name, cause.FailsIn name ∧ p.CallAt name span t

theorem Cause.FailsIn.blames {p : Program} {name : String} {span : Span} {t : List Char}
    {cause : Cause} (h : cause.FailsIn name) (hcall : p.CallAt name span t) :
    p.Blames span t cause := by
  cases cause with
  | arity | tooFewOperands | arithmetic | unsupportedComparison | divisionByZero | noLength | io =>
    exact ⟨name, h, hcall⟩
  | undefinedFunction | undefinedName | notCallable | notAValue | reserved | formatKey |
      formatSyntax | notImplemented | noMain | mainNotAFunction => exact h.elim

theorem Template.Problem.blames {p : Program} {span : Span} {literal : String}
    (problem : Template.Problem) : p.Blames span literal.toList (problem.toCause literal) := by
  cases problem <;> rfl

section
variable {p : Program} {cs : List Char}

/-- The text of a call that stands in the source. -/
theorem Expr.slice_of_call {x : Ident} {args : List Expr} {span : Span}
    (hp : .expr (.call x args span) ∈ p.items) (h : Item.StandsIn cs (.expr (.call x args span))) :
    ∃ t, slice? cs span.start span.stop = some t ∧ p.CallAt x.name span t := by
  obtain ⟨pos, t, hs, hwritten⟩ := h
  have hslice := hs.slice
  cases hwritten with
  | @call _ _ _ t a u hx ha hargs =>
    refine ⟨_, hslice, ⟨x, args, rfl, hp, .call hx ha hargs⟩, ?_, ?_⟩
    · obtain ⟨-, rfl⟩ := hx
      rw [String.toList_ofList]
      exact List.prefix_append _ _
    · have hlast : t ++ (a ++ (['('] ++ (u ++ [')']))) = (t ++ (a ++ (['('] ++ u))) ++ [')'] := by
        simp
      rw [hlast, List.getLast?_concat]

end

/-- **A failure that arises at a point of a run is blamed on the text at its span.** -/
theorem Point.Raises.blames {g : Globals} {p : Program} {cs : List Char} {q : Point} {cause : Cause}
    {span : Span} (h : q.Raises g (.failed ⟨cause, some span⟩))
    (hp : ∀ i ∈ q.code.items, i ∈ p.items) (hs : ∀ i ∈ p.items, i.StandsIn cs) :
    ∃ t, slice? cs span.start span.stop = some t ∧ p.Blames span t cause := by
  cases h with
  | @callee _ _ x es site _ _ _ hf =>
    have hcall := hp _ (Expr.mem_items_self _)
    obtain ⟨t, ht, hcallAt⟩ := Expr.slice_of_call hcall (hs _ hcall)
    unfold Scope.callee at hf
    split at hf
    · cases hf
    · cases hf
      exact ⟨t, ht, hcallAt⟩
    · cases hf
      exact ⟨t, ht, hcallAt⟩
  | builtin hf hes hcause =>
    have hcall := hp _ (Expr.mem_items_self _)
    obtain ⟨t, ht, hcallAt⟩ := Expr.slice_of_call hcall (hs _ hcall)
    have hname := Globals.get?_eq_builtin (Scope.callee_eq_ok hf)
    exact ⟨t, ht, (Builtin.failsIn_of_call hcause).blames (hname ▸ hcallAt)⟩
  | arity hf hes harity =>
    have hcall := hp _ (Expr.mem_items_self _)
    obtain ⟨t, ht, hcallAt⟩ := Expr.slice_of_call hcall (hs _ hcall)
    have hname := (Globals.get?_eq_user (Scope.callee_eq_ok hf)).2
    exact ⟨t, ht, _, rfl, hname ▸ hcallAt⟩
  | @assign _ _ x e _ _ _ _ _ _ _ he hset =>
    have hident : .ident x ∈ p.items := hp _ (by simp [Code.items, Expr.items])
    unfold Scope.assign at hset
    split at hset
    · cases hset
      exact ⟨_, Ident.slice_of_standsIn (hs _ hident), rfl⟩
    · cases hset
  | @name _ _ x _ _ _ _ hx =>
    have hident : .ident x ∈ p.items := hp _ (by simp [Code.items, Expr.items])
    have hslice := Ident.slice_of_standsIn (hs _ hident)
    unfold Scope.value at hx
    split at hx
    · cases hx
    · cases hx
      exact ⟨_, hslice, rfl⟩
    · cases hx
      exact ⟨_, hslice, rfl⟩
  | string hlit =>
    obtain ⟨pos, t, hat, hwritten⟩ := hs _ (hp _ (Expr.mem_items_self _))
    cases hwritten with
    | string _ =>
      refine ⟨_, hat.slice, ?_⟩
      obtain ⟨problem, rfl⟩ := StrLit.exists_problem hlit
      exact problem.blames
  | @number _ _ κ _ _ _ _ hκ =>
    obtain ⟨pos, t, hat, hwritten⟩ := hs _ (hp _ (Expr.mem_items_self _))
    cases hwritten with
    | number hspells => exact ⟨_, hat.slice, κ, hκ, rfl, hspells⟩

/-! ### Failures of programs -/

/-- **Failures point at what they blame.**  When loading or running a parsed program fails with a
span, the part of the source at that span is what the failure is blamed on. -/
theorem Program.slice_blames {source : String} {p : Program} (hparse : Program.parse source = .ok p)
    {depth : Nat} {m : Machine} {cause : Cause} {span : Span}
    (h : (p.interpret depth m).failure? = some ⟨cause, some span⟩) :
    ∃ t, slice? source.toList span.start span.stop = some t ∧ p.Blames span t cause := by
  have hs := Program.items_standIn hparse
  obtain ⟨m', h⟩ := Answer.failure?_eq_some_iff.mp h
  rcases Program.stop_origin h (by simp [Stop.Placed]) with ⟨x, hx, hwhy⟩ |
    ⟨g, q, -, hraises, hcode⟩
  · cases hwhy
    exact ⟨_, Ident.slice_of_standsIn (hs _ hx), rfl⟩
  · exact hraises.blames hcode hs

/-- The division in the body of `f` is blamed, and not the call of `f`. -/
theorem Program.slice_blames_division : ∃ p,
    Program.parse "def main():\n\tf(0)\ndef f(x):\n\tdiv(1, x)" = .ok p ∧
    ∃ t, slice? "def main():\n\tf(0)\ndef f(x):\n\tdiv(1, x)".toList 29 38 = some t ∧
      p.Blames ⟨29, 38⟩ t .divisionByZero := by
  have h : (Program.parse "def main():\n\tf(0)\ndef f(x):\n\tdiv(1, x)").toOption.bind
      (fun p => (p.interpret 2 {}).failure?) = some ⟨.divisionByZero, some ⟨29, 38⟩⟩ := by
    decide +kernel
  obtain ⟨p, hp, hfailure⟩ := Option.bind_eq_some_iff.mp h
  have hparse := Program.parse_eq_ok_of_toOption hp
  exact ⟨p, hparse, Program.slice_blames hparse hfailure⟩

end Offside
