import Offside.Proofs.Blame
import Offside.Proofs.Loading

/-!
# Which failures are placed, and where

A run fails without a span only where no code of the program is to blame: `main` cannot be called, or
the output cannot be flushed.  Every other failure has the span of what it arose at, whatever calls
were under way: no call puts the blame on itself for what happened in the body that it ran.

* the points of a run of a program: `Program.Visits`;
* **how a program can fail**: `Program.Fails`, `Program.fails_of_interpret`;
* what arises at a visited point is what is reported: `Program.Visits.eq_of_raises`;
* **which failures are placed, and where**: `Program.failure_placed`.
-/

namespace Offside

/-! ### What code and flushing report -/

/-- The causes that code of a program can fail with: neither is `main` missing, nor does flushing
fail. -/
def Cause.Running (cause : Cause) : Prop :=
  cause.kind ≠ .noEntryPoint ∧ ∀ c : Console, c.flush ≠ .error cause

theorem Console.flush_eq_error {c : Console} {cause : Cause} (h : c.flush = .error cause) :
    cause = .io "I/O error: flush failed" := by
  unfold Console.flush at h
  split at h
  · cases h
    rfl
  · cases h

theorem Cause.running_of_ne {cause : Cause} (hkind : cause.kind ≠ .noEntryPoint)
    (hio : cause ≠ .io "I/O error: flush failed") : cause.Running :=
  ⟨hkind, fun _ hflush => hio (Console.flush_eq_error hflush)⟩

/-- Most kinds of failures are neither of a missing `main` nor of the console. -/
theorem Cause.running_of_kind {cause : Cause} (h : cause.kind ∉ [FailureKind.noEntryPoint, .io]) :
    cause.Running := by
  refine running_of_ne (fun hkind => h (by simp [hkind])) ?_
  rintro rfl
  exact h (by decide)

theorem Cause.FailsIn.running {name : String} {cause : Cause} (h : cause.FailsIn name) :
    cause.Running := by
  cases cause with
  | io what =>
    refine running_of_ne (by simp [Cause.kind]) ?_
    rintro ⟨⟩
    rcases h with ⟨-, h⟩ | ⟨-, h | h⟩
    · exact absurd h (by decide)
    · exact absurd h (by decide)
    · exact absurd h (by decide)
  | arity | tooFewOperands | arithmetic | unsupportedComparison | divisionByZero | noLength =>
    exact running_of_kind (by simp [Cause.kind])
  | undefinedFunction | undefinedName | notCallable | notAValue | reserved | formatKey |
      formatSyntax | notImplemented | noMain | mainNotAFunction => exact h.elim

/-- What arises at a point is not what the call of `main` or flushing reports. -/
theorem Point.Raises.running {g : Globals} {q : Point} {failure : Failure}
    (h : q.Raises g (.failed failure)) : failure.cause.Running := by
  cases h with
  | callee hf =>
    unfold Scope.callee at hf
    split at hf
    · cases hf
    · cases hf
      exact Cause.running_of_kind (by simp [Cause.kind])
    · cases hf
      exact Cause.running_of_kind (by simp [Cause.kind])
  | builtin hf hes hcause => exact (Builtin.failsIn_of_call hcause).running
  | assign he hset =>
    unfold Scope.assign at hset
    split at hset
    · cases hset
      exact Cause.running_of_kind (by simp [Cause.kind])
    · cases hset
  | name hx =>
    unfold Scope.value at hx
    split at hx
    · cases hx
    · cases hx
      exact Cause.running_of_kind (by simp [Cause.kind])
    · cases hx
      exact Cause.running_of_kind (by simp [Cause.kind])
  | string hlit =>
    obtain ⟨problem, rfl⟩ := StrLit.exists_problem hlit
    refine Cause.running_of_kind ?_
    cases problem <;> simp [Template.Problem.toCause, Cause.kind]
  | arity | number => exact Cause.running_of_kind (by simp [Cause.kind])

/-- A failure after flushing was there before, or flushing failed. -/
theorem Answer.of_flush_failed {r : Answer} {m : Machine} {failure : Failure}
    (h : r.flush = (.error (.failed failure), m)) :
    r = (.error (.failed failure), m) ∨
      (m.console.flush = .error failure.cause ∧ failure.span = none) := by
  unfold Answer.flush at h
  split at h
  · cases h
  · cases h
  · split at h
    · exact Or.inl h
    · next hflush =>
      cases h
      exact Or.inr ⟨hflush, rfl⟩

/-! ### How a program can fail -/

namespace Program

variable {p : Program} {depth : Nat} {m m' : Machine}

theorem get?_main (p : Program) :
    Globals.get? ⟨p.funs⟩ "main" = (p.get? "main").map fun f => .function (.user f) :=
  Globals.get?_of_not_standard (by decide)

theorem callMain_of_get? {f : FunDef} (h : p.get? "main" = some f) :
    Globals.callMain ⟨p.funs⟩ depth m = (Function.user f).apply (invoke ⟨p.funs⟩ depth) [] m := by
  unfold Globals.callMain
  rw [get?_main, h]
  rfl

/-- The program loads and the body of its `main`, the function `f`, is run, where calls may then be
nested `d` deep. -/
structure Enters (p : Program) (depth : Nat) (f : FunDef) (d : Nat) : Prop where
  loadable : p.Loadable
  main : p.get? "main" = some f
  params : f.params = []
  depth_eq : depth = d + 1

/-- **The points of a run of a program:** those to which the body of `main` leads, when the functions
have been registered and `main` has been called. -/
def Visits (p : Program) (depth : Nat) (m : Machine) (q : Point) : Prop :=
  ∃ f d, p.Enters depth f d ∧
    Reaches ⟨p.funs⟩ (.start f d [] ((p.registered m).record (.calling f.name.name []))) q

/-- **How a program can fail**, with the machine that it leaves: it does not load, its output is not
flushed, its `main` is missing or has parameters, or something fails at a point of the run. -/
inductive Fails (p : Program) (depth : Nat) (m m' : Machine) : Failure → Prop
  | load {x : Ident} : p.FirstOffence x → Fails p depth m m' ⟨.reserved x.name, some x.span⟩
  | flush {cause : Cause} : m'.console.flush = .error cause → Fails p depth m m' ⟨cause, none⟩
  | noMain : p.get? "main" = none → Fails p depth m m' ⟨.noMain, none⟩
  | arity {f : FunDef} : p.get? "main" = some f → f.params ≠ [] →
      Fails p depth m m' ⟨.arity "main" f.arity 0, none⟩
  | point {q : Point} {failure : Failure} : p.Visits depth m q →
      q.Raises ⟨p.funs⟩ (.failed failure) → Fails p depth m m' failure

/-- The failures of a program that calls `main`. -/
theorem fails_of_callMain {failure : Failure} (hload : p.Loadable)
    (h : Globals.callMain ⟨p.funs⟩ depth (p.registered m) = (.error (.failed failure), m')) :
    p.Fails depth m m' failure := by
  cases hmain : p.get? "main" with
  | none =>
    unfold Globals.callMain at h
    rw [get?_main, hmain] at h
    cases h
    exact .noMain hmain
  | some f =>
    rw [callMain_of_get? hmain] at h
    have hname : f.name.name = "main" :=
      (Globals.get?_eq_user (g := ⟨p.funs⟩) (by rw [get?_main, hmain]; rfl)).2
    by_cases hparams : f.params = []
    · have harity : f.arity = ([] : List Value).length := by simp [FunDef.arity, hparams]
      rw [Function.apply_of_arity_eq harity] at h
      obtain ⟨d, q, hd, hreach, hraises⟩ := exists_raises_of_invoke h (by simp)
      exact .point ⟨f, d, ⟨hload, hmain, hparams, hd⟩, hreach⟩ hraises
    · have harity : f.arity ≠ ([] : List Value).length := by simp [FunDef.arity, hparams]
      rw [Function.apply_of_arity_ne harity] at h
      cases h
      rw [hname]
      exact .arity hmain hparams

theorem fails_of_interpret {failure : Failure}
    (h : p.interpret depth m = (.error (.failed failure), m')) : p.Fails depth m m' failure := by
  cases hload : Globals.load p with
  | error failure' =>
    obtain ⟨x, hx, rfl⟩ := Globals.load_eq_error_iff.mp hload
    unfold interpret at h
    unfold Globals.load at hload
    rcases hextend : Globals.extend {} p.funs with ⟨g, offence⟩
    rw [hextend] at h hload
    cases offence with
    | none => cases hload
    | some failure'' =>
      cases hload
      cases h
      exact .load hx
  | ok g =>
    obtain ⟨hp, -⟩ := Globals.load_eq_ok_iff.mp hload
    rw [interpret_of_loadable hp] at h
    rcases Answer.of_flush_failed h with h | ⟨hflush, hspan⟩
    · exact fails_of_callMain hp h
    · obtain ⟨cause, span⟩ := failure
      cases hspan
      exact .flush hflush

/-! ### Where failures are placed -/

/-- **What arises at a visited point is what is reported**, unless flushing fails as well. -/
theorem Visits.eq_of_raises {q : Point} {failure failure' : Failure} (hq : p.Visits depth m q)
    (hraises : q.Raises ⟨p.funs⟩ (.failed failure'))
    (h : p.interpret depth m = (.error (.failed failure), m')) (hspan : failure.span ≠ none) :
    failure = failure' := by
  obtain ⟨f, d, hmain, hreach⟩ := hq
  obtain ⟨m₁, hrun⟩ := Point.run_eq_stopped_iff.mpr ⟨q, hreach, hraises⟩
  have hbody := Exec.answer_eq_error_iff.mpr (Step.void_eq_stopped_iff.mp hrun)
  have harity : f.arity = ([] : List Value).length := by simp [FunDef.arity, hmain.params]
  rw [interpret_of_loadable hmain.loadable, callMain_of_get? hmain.main,
    Function.apply_of_arity_eq harity, hmain.depth_eq] at h
  have hcall := hbody.symm.trans (Answer.of_flush h hspan)
  cases hcall
  rfl

/-- The code of a visited point is code of the program. -/
theorem Visits.mem_items {q : Point} {i : Item} (hq : p.Visits depth m q) (hi : i ∈ q.code.items) :
    i ∈ p.items := by
  obtain ⟨f, d, hmain, hreach⟩ := hq
  have hf : f ∈ p.funs := List.mem_of_find?_eq_some hmain.main
  have hin := hreach.inProgram hf
  exact FunDef.mem_items_of_body hin.function (hin.code i hi)

/-- A failure has no span if the call of `main` or flushing is to blame. -/
theorem Fails.span_eq_none_iff {failure : Failure} (h : p.Fails depth m m' failure) :
    failure.span = none ↔ failure.cause.kind = .noEntryPoint ∨
      (∃ f, p.get? "main" = some f ∧ f.params ≠ [] ∧ failure.cause = .arity "main" f.arity 0) ∨
      m'.console.flush = .error failure.cause := by
  cases h with
  | @load x _ =>
    have hrunning : (Cause.reserved x.name).Running := Cause.running_of_kind (by simp [Cause.kind])
    simp [hrunning.1, hrunning.2]
  | flush hflush => simp [hflush]
  | noMain _ => simp [Cause.kind]
  | arity hmain hparams => simp [hmain, hparams]
  | point hq hraises =>
    obtain ⟨e, -, hspan⟩ := hraises.exists_site
    obtain ⟨f, d, hmain, -⟩ := hq
    -- Code runs only if `main` has no parameters.
    simp [hspan, hraises.running.1, hraises.running.2, hmain.main, hmain.params]

end Program

/-- **A point at which a call fails itself:** the function that is called there, on the values of the
arguments, is what fails. -/
def Point.CallFails (g : Globals) (q : Point) (span : Span) (cause : Cause) : Prop :=
  ∃ x es f vs ls m, q.code = .expr (.call x es span) ∧
    Scope.callee ⟨g, q.locals⟩ x span = .ok f ∧
    Eval.exprs g (invoke g q.depth) es q.locals q.machine = .done vs ls m ∧
    Function.Fails vs m.console f cause

theorem Point.CallFails.raises {g : Globals} {q : Point} {span : Span} {cause : Cause}
    (h : q.CallFails g span cause) : q.Raises g (.failed ⟨cause, some span⟩) := by
  obtain ⟨f, d, code, ls, m⟩ := q
  obtain ⟨x, es, fn, vs, ls', m₁, rfl, hf, hes, hfails⟩ := h
  cases hfails with
  | builtin hcause => exact .builtin hf hes hcause
  | arity harity => exact .arity hf hes harity

/-- **Which failures are placed, and where.**  A failure has no span if and only if there is no `main`
to call, `main` has parameters, or it is flushing that failed.  Any other failure has the span of a
name of a function or a parameter that is taken, or that of the code at which it arose: of a name that
is used or assigned, of a literal, or of a call.  If a function that is called fails itself, this is
the failure that is reported, and its span is that of the call of this function and of no call around
it. -/
theorem Program.failure_placed {p : Program} {depth : Nat} {m m' : Machine} {failure : Failure}
    (h : p.interpret depth m = (.error (.failed failure), m')) :
    (failure.span = none ↔ failure.cause.kind = .noEntryPoint ∨
      (∃ f, p.get? "main" = some f ∧ f.params ≠ [] ∧ failure.cause = .arity "main" f.arity 0) ∨
      m'.console.flush = .error failure.cause) ∧
    (∀ span, failure.span = some span →
      (∃ x, p.FirstOffence x ∧ x.span = span ∧ failure.cause = .reserved x.name) ∨
      ∃ q e, p.Visits depth m q ∧ q.Raises ⟨p.funs⟩ (.failed failure) ∧
        q.code = .expr e ∧ e.site ∈ p.items ∧ e.site.span = span) ∧
    ∀ q span cause, p.Visits depth m q → q.CallFails ⟨p.funs⟩ span cause → failure.span ≠ none →
      failure = ⟨cause, some span⟩ := by
  have hfails := fails_of_interpret h
  refine ⟨hfails.span_eq_none_iff, fun span hspan => ?_, fun q span cause hq hcall hspan => ?_⟩
  · cases hfails with
    | load hx =>
      cases hspan
      exact Or.inl ⟨_, hx, rfl, rfl⟩
    | flush | noMain | arity => cases hspan
    | @point q _ hq hraises =>
      obtain ⟨e, hcode, hsite⟩ := hraises.exists_site
      refine Or.inr ⟨q, e, hq, hraises, hcode, hq.mem_items ?_, ?_⟩
      · rw [hcode]
        exact e.site_mem_items
      · exact Option.some_inj.mp (hsite.symm.trans hspan)
  · exact hq.eq_of_raises hcall.raises h hspan

/-- The division in the body of `f`, at the span `29..38`, is a point of the run of `main` and is
blamed, and not the call of `f` at `13..17`. -/
theorem Program.failure_placed_division : ∃ p,
    Program.parse "def main():\n\tf(0)\ndef f(x):\n\tdiv(1, x)" = .ok p ∧
    ∃ q e, p.Visits 2 {} q ∧ q.Raises ⟨p.funs⟩ (.failed ⟨.divisionByZero, some ⟨29, 38⟩⟩) ∧
      q.code = .expr e ∧ e.site ∈ p.items ∧ e.site.span = ⟨29, 38⟩ := by
  have h : (Program.parse "def main():\n\tf(0)\ndef f(x):\n\tdiv(1, x)").toOption.bind
      (fun p => (p.interpret 2 {}).failure?) = some ⟨.divisionByZero, some ⟨29, 38⟩⟩ := by
    decide +kernel
  obtain ⟨p, hp, hfailure⟩ := Option.bind_eq_some_iff.mp h
  obtain ⟨m', hrun⟩ := Answer.failure?_eq_some_iff.mp hfailure
  refine ⟨p, Program.parse_eq_ok_of_toOption hp, ?_⟩
  rcases (Program.failure_placed hrun).2.1 _ rfl with ⟨x, -, -, hcause⟩ | hpoint
  · cases hcause
  · exact hpoint

end Offside
