import Offside.Run.Eval

/-!
# What code gives

Code either runs to its end or stops.  The laws below say for each form of code when it does which,
and what it leads to in between.

* a sequence: `Exec.bind_eq_done_iff`, `Exec.bind_eq_stopped_iff`;
* **expressions**: `Eval.call_eq_done_iff`, `Eval.call_eq_stopped_iff`, `Eval.assign_eq_done_iff`,
  `Eval.assign_eq_stopped_iff`, and the atoms;
* **statements**: `Eval.stmts_cons_of_done`, `Eval.branches_cons_of_done`;
* **calls**: `Exec.callAt_eq_done_iff`, `Exec.callAt_eq_stopped_iff`, `Function.apply_eq_error`,
  `Function.Fails`.
-/

namespace Offside

variable {α β : Type} {ls ls' : Locals} {m m' : Machine} {why : Stop}

namespace Exec

/-! ### Sequences -/

section
variable {x : Exec α} {f : α → Exec β}

theorem bind_eq_done_iff {b : β} :
    (x >>= f) ls m = .done b ls' m' ↔
      ∃ a ls₁ m₁, x ls m = .done a ls₁ m₁ ∧ f a ls₁ m₁ = .done b ls' m' := by
  cases hx : x ls m with
  | done a ls₁ m₁ =>
    rw [bind_of_done hx]
    constructor
    · intro h
      exact ⟨a, ls₁, m₁, rfl, h⟩
    · rintro ⟨_, _, _, ⟨⟩, h⟩
      exact h
  | stopped why m₁ => simp [bind_of_stopped hx]

theorem bind_eq_stopped_iff :
    (x >>= f) ls m = .stopped why m' ↔
      x ls m = .stopped why m' ∨
        ∃ a ls₁ m₁, x ls m = .done a ls₁ m₁ ∧ f a ls₁ m₁ = .stopped why m' := by
  cases hx : x ls m with
  | done a ls₁ m₁ =>
    rw [bind_of_done hx]
    constructor
    · intro h
      exact Or.inr ⟨a, ls₁, m₁, rfl, h⟩
    · rintro (⟨⟨⟩⟩ | ⟨_, _, _, ⟨⟩, h⟩)
      exact h
  | stopped why m₁ => simp [bind_of_stopped hx]

end

/-! ### Single steps -/

@[simp] theorem pure_apply (a : α) : (pure a : Exec α) ls m = .done a ls m := rfl

@[simp] theorem stop_apply : (stop why : Exec α) ls m = .stopped why m := rfl

@[simp] theorem locals_apply : locals ls m = .done ls ls m := rfl

@[simp] theorem setLocals_apply : setLocals ls' ls m = .done () ls' m := rfl

@[simp] theorem setLast_apply (v : Value) : setLast v ls m = .done () (ls.setLast v) m := rfl

@[simp] theorem ofExcept_ok (a : α) : (ofExcept (.ok a) : Exec α) = pure a := rfl

@[simp] theorem ofExcept_error (failure : Failure) :
    (ofExcept (.error failure) : Exec α) = stop (.failed failure) := rfl

theorem ofExcept_eq_done_iff {r : Except Failure α} {a : α} :
    ofExcept r ls m = .done a ls' m' ↔ r = .ok a ∧ ls = ls' ∧ m = m' := by
  cases r with
  | ok b => simp
  | error failure => simp

theorem ofExcept_eq_stopped_iff {r : Except Failure α} :
    ofExcept r ls m = .stopped why m' ↔ ∃ failure, r = .error failure ∧ why = .failed failure ∧
      m = m' := by
  cases r with
  | ok b => simp
  | error failure => simp [eq_comm]

/-! ### Calls -/

/-- A failure without a span gets that of the call. -/
def blamed (site : Span) : Stop → Stop
  | .failed failure => .failed (failure.orSpan site)
  | why => why

theorem callAt_of_ok {f : Machine → Answer} {v : Value} (h : f m = (.ok v, m')) (site : Span) :
    callAt site f ls m = .done v ls m' := by
  unfold callAt
  rw [h]

theorem callAt_of_error {f : Machine → Answer} (h : f m = (.error why, m')) (site : Span) :
    callAt site f ls m = .stopped (blamed site why) m' := by
  unfold callAt
  rw [h]
  cases why <;> rfl

theorem callAt_eq_done_iff {site : Span} {f : Machine → Answer} {v : Value} :
    callAt site f ls m = .done v ls' m' ↔ f m = (.ok v, m') ∧ ls = ls' := by
  constructor
  · intro h
    rcases hf : f m with ⟨why | w, m₁⟩
    · rw [callAt_of_error hf] at h
      cases h
    · rw [callAt_of_ok hf] at h
      cases h
      exact ⟨rfl, rfl⟩
  · rintro ⟨hf, rfl⟩
    exact callAt_of_ok hf site

theorem callAt_eq_stopped_iff {site : Span} {f : Machine → Answer} :
    callAt site f ls m = .stopped why m' ↔
      ∃ why', f m = (.error why', m') ∧ why = blamed site why' := by
  constructor
  · intro h
    rcases hf : f m with ⟨why₁ | w, m₁⟩
    · rw [callAt_of_error hf] at h
      cases h
      exact ⟨why₁, rfl, rfl⟩
    · rw [callAt_of_ok hf] at h
      cases h
  · rintro ⟨why', hf, rfl⟩
    exact callAt_of_error hf site

theorem answer_eq_error_iff {x : Exec Value} :
    x.answer ls m = (.error why, m') ↔ x ls m = .stopped why m' := by
  unfold answer
  cases x ls m with
  | done w ls₁ m₁ => simp
  | stopped why' m₁ => simp

end Exec

/-! ### Functions -/

@[simp] theorem Machine.record_console (m : Machine) (e : Event) :
    (m.record e).console = m.console := rfl

section
variable {invoke : Invoke} {f : FunDef} {args : List Value}

theorem Function.apply_of_arity_eq (h : f.arity = args.length) :
    (Function.user f).apply invoke args =
      fun m => invoke f args (m.record (.calling f.name.name args)) := by
  funext m
  exact if_pos h

theorem Function.apply_of_arity_ne (h : f.arity ≠ args.length) :
    (Function.user f).apply invoke args =
      fun m => (.error (.failed ⟨.arity f.name.name f.arity args.length, none⟩),
        m.record (.calling f.name.name args)) := by
  funext m
  exact if_neg h

end

/-- **Why a call does not give a value:** a predefined function fails, a function of the program is
called with the wrong number of arguments, or its code stops. -/
theorem Function.apply_eq_error {invoke : Invoke} {f : Function} {args : List Value}
    (h : f.apply invoke args m = (.error why, m')) :
    (∃ b cause, f = .builtin b ∧ (b.call args m.console).1 = .error cause ∧
      why = .failed ⟨cause, none⟩) ∨
    (∃ d, f = .user d ∧ d.arity ≠ args.length ∧
      why = .failed ⟨.arity d.name.name d.arity args.length, none⟩) ∨
    (∃ d, f = .user d ∧ d.arity = args.length ∧
      invoke d args (m.record (.calling d.name.name args)) = (.error why, m')) := by
  cases f with
  | builtin b =>
    unfold Function.apply at h
    simp only [Machine.record_console] at h
    rcases hcall : b.call args m.console with ⟨cause | v, c⟩
    · rw [hcall] at h
      cases h
      exact Or.inl ⟨b, cause, rfl, by rw [hcall], rfl⟩
    · rw [hcall] at h
      cases h
  | user d =>
    by_cases harity : d.arity = args.length
    · rw [Function.apply_of_arity_eq harity] at h
      exact Or.inr (Or.inr ⟨d, rfl, harity, h⟩)
    · rw [Function.apply_of_arity_ne harity] at h
      cases h
      exact Or.inr (Or.inl ⟨d, rfl, harity, rfl⟩)

/-- **The function itself fails** on the arguments, rather than the code in its body: a predefined
function, or a function of the program that is given the wrong number of them. -/
inductive Function.Fails (args : List Value) (c : Console) : Function → Cause → Prop
  | builtin {b : Builtin} {cause : Cause} : (b.call args c).1 = .error cause →
      Fails args c (.builtin b) cause
  | arity {f : FunDef} : f.arity ≠ args.length →
      Fails args c (.user f) (.arity f.name.name f.arity args.length)

/-- A function that itself fails leaves it to the call to say where. -/
theorem Function.Fails.apply_eq {invoke : Invoke} {f : Function} {args : List Value} {m : Machine}
    {cause : Cause} (h : Function.Fails args m.console f cause) :
    ∃ m', f.apply invoke args m = (.error (.failed ⟨cause, none⟩), m') := by
  cases h with
  | @builtin b _ hcause =>
    unfold Function.apply
    simp only [Machine.record_console]
    rcases hcall : b.call args m.console with ⟨cause' | v, c⟩
    · rw [hcall] at hcause
      cases hcause
      exact ⟨_, rfl⟩
    · rw [hcall] at hcause
      cases hcause
  | arity harity =>
    rw [Function.apply_of_arity_ne harity]
    exact ⟨_, rfl⟩

/-! ### Literals -/

/-- A literal has no text only if it is a template with a problem. -/
theorem StrLit.exists_problem {lit : StrLit} {s : Scope} {cause : Cause}
    (h : lit.eval s = .error cause) :
    ∃ problem : Template.Problem, cause = problem.toCause lit.sourceForm := by
  unfold StrLit.eval Template.substitute at h
  split at h
  · cases hfill : Template.fill (Template.shown s.valueOf?) lit.content with
    | ok text =>
      rw [hfill] at h
      cases h
    | error problem =>
      rw [hfill] at h
      cases h
      exact ⟨problem, rfl⟩
  · cases h

namespace Eval

variable {g : Globals} {invoke : Invoke} {v : Value}

/-! ### The equations of the evaluator -/

section
variable {x : Ident} {e : Expr} {es : List Expr} {b : Body} {span : Span}

theorem expr_call : expr g invoke (.call x es span) =
    callee g x span >>= fun f => exprs g invoke es >>= fun vs =>
      Exec.callAt span (f.apply invoke vs) := rfl

theorem expr_assign : expr g invoke (.assign x e span) =
    expr g invoke e >>= fun v => assign g x v >>= fun _ => pure v := rfl

theorem expr_name : expr g invoke (.name x span) = name g x := rfl

theorem expr_string {lit : StrLit} : expr g invoke (.string lit span) = string g lit span := rfl

theorem expr_number {κ : NumberKind} {text : String} :
    expr g invoke (.number κ text span) = number κ text span := rfl

theorem exprs_cons : exprs g invoke (e :: es) =
    expr g invoke e >>= fun v => exprs g invoke es >>= fun vs => pure (v :: vs) := rfl

theorem branches_nil {otherwise : Exec Value} : branches g invoke [] otherwise = otherwise := rfl

theorem branches_cons {brs : List Branch} {otherwise : Exec Value} :
    branches g invoke (.mk e b :: brs) otherwise =
      expr g invoke e >>= fun v =>
        if v.truth then body g invoke b else branches g invoke brs otherwise := rfl

theorem orElse_none : orElse g invoke none = Exec.last := rfl

theorem orElse_some : orElse g invoke (some b) = body g invoke b := rfl

theorem stmts_cons {s : Stmt} {ss : List Stmt} : stmts g invoke (s :: ss) =
    stmt g invoke s >>= fun v => Exec.setLast v >>= fun _ => stmts g invoke ss := rfl

theorem body_mk {ss : List Stmt} : body g invoke (.mk ss span) = stmts g invoke ss := rfl

end

/-! ### Expressions -/

theorem callee_eq_done_iff {x : Ident} {site : Span} {f : Function} :
    callee g x site ls m = .done f ls' m' ↔
      Scope.callee ⟨g, ls⟩ x site = .ok f ∧ ls = ls' ∧ m = m' :=
  Exec.ofExcept_eq_done_iff

theorem callee_eq_stopped_iff {x : Ident} {site : Span} :
    callee g x site ls m = .stopped why m' ↔
      ∃ failure, Scope.callee ⟨g, ls⟩ x site = .error failure ∧ why = .failed failure ∧ m = m' :=
  Exec.ofExcept_eq_stopped_iff

theorem name_eq_done_iff {x : Ident} {span : Span} :
    expr g invoke (.name x span) ls m = .done v ls' m' ↔
      Scope.value ⟨g, ls⟩ x = .ok v ∧ ls = ls' ∧ m = m' := by
  rw [expr_name]
  exact Exec.ofExcept_eq_done_iff

theorem name_eq_stopped_iff {x : Ident} {span : Span} :
    expr g invoke (.name x span) ls m = .stopped why m' ↔
      ∃ failure, Scope.value ⟨g, ls⟩ x = .error failure ∧ why = .failed failure ∧ m = m' := by
  rw [expr_name]
  exact Exec.ofExcept_eq_stopped_iff

theorem string_eq_done_iff {lit : StrLit} {span : Span} :
    expr g invoke (.string lit span) ls m = .done v ls' m' ↔
      ∃ text, lit.eval ⟨g, ls⟩ = .ok text ∧ v = .str text ∧ ls = ls' ∧ m = m' := by
  rw [expr_string, string, Exec.bind_of_done Exec.locals_apply]
  cases lit.eval ⟨g, ls⟩ with
  | ok text => simp [eq_comm]
  | error cause => simp

theorem string_eq_stopped_iff {lit : StrLit} {span : Span} :
    expr g invoke (.string lit span) ls m = .stopped why m' ↔
      ∃ cause, lit.eval ⟨g, ls⟩ = .error cause ∧ why = .failed ⟨cause, some span⟩ ∧ m = m' := by
  rw [expr_string, string, Exec.bind_of_done Exec.locals_apply]
  cases lit.eval ⟨g, ls⟩ with
  | ok text => simp
  | error cause => simp [eq_comm]

theorem number_eq_done_iff {κ : NumberKind} {text : String} {span : Span} :
    expr g invoke (.number κ text span) ls m = .done v ls' m' ↔
      κ = .dec ∧ (∃ i, Decimal.literal? text = some i ∧ v = .int i) ∧ ls = ls' ∧ m = m' := by
  rw [expr_number]
  cases κ with
  | dec =>
    rw [number]
    cases Decimal.literal? text with
    | some i => simp [eq_comm]
    | none => simp
  | hex | oct | bin | float | imag => simp [number]

theorem number_eq_stopped_iff {κ : NumberKind} {text : String} {span : Span} :
    expr g invoke (.number κ text span) ls m = .stopped why m' ↔
      m = m' ∧ ((κ = .dec ∧ Decimal.literal? text = none ∧ why = .invalidInteger text) ∨
        (κ ≠ .dec ∧ why = .failed ⟨.notImplemented κ.describe, some span⟩)) := by
  rw [expr_number]
  cases κ with
  | dec =>
    rw [number]
    cases Decimal.literal? text with
    | some i => simp
    | none => simp [eq_comm, and_comm]
  | hex | oct | bin | float | imag => simp [number, eq_comm, and_comm]

theorem call_eq_done_iff {x : Ident} {args : List Expr} {span : Span} :
    expr g invoke (.call x args span) ls m = .done v ls' m' ↔
      ∃ f vs m₁, Scope.callee ⟨g, ls⟩ x span = .ok f ∧
        exprs g invoke args ls m = .done vs ls' m₁ ∧ f.apply invoke vs m₁ = (.ok v, m') := by
  rw [expr_call]
  simp only [Exec.bind_eq_done_iff, callee_eq_done_iff, Exec.callAt_eq_done_iff]
  constructor
  · rintro ⟨f, _, _, ⟨hf, rfl, rfl⟩, vs, _, m₁, hargs, happly, rfl⟩
    exact ⟨f, vs, m₁, hf, hargs, happly⟩
  · rintro ⟨f, vs, m₁, hf, hargs, happly⟩
    exact ⟨f, ls, m, ⟨hf, rfl, rfl⟩, vs, ls', m₁, hargs, happly, rfl⟩

theorem call_eq_stopped_iff {x : Ident} {args : List Expr} {span : Span} :
    expr g invoke (.call x args span) ls m = .stopped why m' ↔
      (∃ failure, Scope.callee ⟨g, ls⟩ x span = .error failure ∧ why = .failed failure ∧ m = m') ∨
      ∃ f, Scope.callee ⟨g, ls⟩ x span = .ok f ∧ (exprs g invoke args ls m = .stopped why m' ∨
        ∃ vs ls₁ m₁ why', exprs g invoke args ls m = .done vs ls₁ m₁ ∧
          f.apply invoke vs m₁ = (.error why', m') ∧ why = Exec.blamed span why') := by
  rw [expr_call]
  simp only [Exec.bind_eq_stopped_iff, callee_eq_done_iff, callee_eq_stopped_iff,
    Exec.callAt_eq_stopped_iff]
  constructor
  · rintro (h | ⟨f, _, _, ⟨hf, rfl, rfl⟩, hargs | ⟨vs, ls₁, m₁, hargs, why', happly, rfl⟩⟩)
    · exact Or.inl h
    · exact Or.inr ⟨f, hf, Or.inl hargs⟩
    · exact Or.inr ⟨f, hf, Or.inr ⟨vs, ls₁, m₁, why', hargs, happly, rfl⟩⟩
  · rintro (h | ⟨f, hf, hargs | ⟨vs, ls₁, m₁, why', hargs, happly, rfl⟩⟩)
    · exact Or.inl h
    · exact Or.inr ⟨f, ls, m, ⟨hf, rfl, rfl⟩, Or.inl hargs⟩
    · exact Or.inr ⟨f, ls, m, ⟨hf, rfl, rfl⟩, Or.inr ⟨vs, ls₁, m₁, hargs, why', happly, rfl⟩⟩

/-- A call of a function that itself fails. -/
theorem call_eq_stopped_of_fails {x : Ident} {es : List Expr} {span : Span}
    {m₁ : Machine} {f : Function} {vs : List Value} {cause : Cause}
    (hf : Scope.callee ⟨g, ls⟩ x span = .ok f) (hes : exprs g invoke es ls m = .done vs ls' m₁)
    (h : Function.Fails vs m₁.console f cause) :
    ∃ m', expr g invoke (.call x es span) ls m = .stopped (.failed ⟨cause, some span⟩) m' := by
  obtain ⟨m', happly⟩ := h.apply_eq
  exact ⟨m', call_eq_stopped_iff.mpr (Or.inr ⟨f, hf, Or.inr ⟨vs, ls', m₁, _, hes, happly, rfl⟩⟩)⟩

theorem assign_eq_done_iff {x : Ident} {e : Expr} {span : Span} :
    expr g invoke (.assign x e span) ls m = .done v ls' m' ↔
      ∃ ls₁, expr g invoke e ls m = .done v ls₁ m' ∧ Scope.assign ⟨g, ls₁⟩ x v = .ok ls' := by
  rw [expr_assign]
  unfold assign
  simp only [Exec.bind_eq_done_iff, Exec.ofExcept_eq_done_iff, Exec.locals_apply, Exec.pure_apply,
    Exec.setLocals_apply, Step.done.injEq]
  constructor
  · rintro ⟨w, ls₁, _, he, _, _, _, ⟨_, _, _, ⟨rfl, rfl, rfl⟩, ls₂, _, _, ⟨hset, rfl, rfl⟩, -, rfl,
      rfl⟩, rfl, rfl, rfl⟩
    exact ⟨ls₁, he, hset⟩
  · rintro ⟨ls₁, he, hset⟩
    exact ⟨v, ls₁, m', he, (), ls', m', ⟨ls₁, ls₁, m', ⟨rfl, rfl, rfl⟩, ls', ls₁, m',
      ⟨hset, rfl, rfl⟩, trivial, rfl, rfl⟩, rfl, rfl, rfl⟩

theorem assign_eq_stopped_iff {x : Ident} {e : Expr} {span : Span} :
    expr g invoke (.assign x e span) ls m = .stopped why m' ↔
      expr g invoke e ls m = .stopped why m' ∨
        ∃ v ls₁ failure, expr g invoke e ls m = .done v ls₁ m' ∧
          Scope.assign ⟨g, ls₁⟩ x v = .error failure ∧ why = .failed failure := by
  rw [expr_assign]
  unfold assign
  simp only [Exec.bind_eq_stopped_iff, Exec.bind_eq_done_iff, Exec.ofExcept_eq_done_iff,
    Exec.ofExcept_eq_stopped_iff, Exec.locals_apply, Exec.pure_apply, Exec.setLocals_apply,
    Step.done.injEq, reduceCtorEq, false_or, and_false, exists_false, or_false]
  constructor
  · rintro (h | ⟨v, ls₁, _, he, _, _, _, ⟨rfl, rfl, rfl⟩, failure, hset, rfl, rfl⟩)
    · exact Or.inl h
    · exact Or.inr ⟨v, ls₁, failure, he, hset, rfl⟩
  · rintro (h | ⟨v, ls₁, failure, he, hset, rfl⟩)
    · exact Or.inl h
    · exact Or.inr ⟨v, ls₁, m', he, ls₁, ls₁, m', ⟨rfl, rfl, rfl⟩, failure, hset, rfl, rfl⟩

theorem exprs_nil : exprs g invoke [] ls m = .done [] ls m := rfl

theorem exprs_cons_eq_done_iff {e : Expr} {es : List Expr} {ws : List Value} :
    exprs g invoke (e :: es) ls m = .done ws ls' m' ↔
      ∃ w ws' ls₁ m₁, ws = w :: ws' ∧ expr g invoke e ls m = .done w ls₁ m₁ ∧
        exprs g invoke es ls₁ m₁ = .done ws' ls' m' := by
  rw [exprs_cons]
  simp only [Exec.bind_eq_done_iff, Exec.pure_apply, Step.done.injEq]
  constructor
  · rintro ⟨w, ls₁, m₁, he, ws', _, _, hes, rfl, rfl, rfl⟩
    exact ⟨w, ws', ls₁, m₁, rfl, he, hes⟩
  · rintro ⟨w, ws', ls₁, m₁, rfl, he, hes⟩
    exact ⟨w, ls₁, m₁, he, ws', ls', m', hes, rfl, rfl, rfl⟩

theorem exprs_cons_eq_stopped_iff {e : Expr} {es : List Expr} :
    exprs g invoke (e :: es) ls m = .stopped why m' ↔
      expr g invoke e ls m = .stopped why m' ∨
        ∃ w ls₁ m₁, expr g invoke e ls m = .done w ls₁ m₁ ∧
          exprs g invoke es ls₁ m₁ = .stopped why m' := by
  rw [exprs_cons]
  simp only [Exec.bind_eq_stopped_iff, Exec.pure_apply, reduceCtorEq, and_false, exists_false,
    or_false]

/-! ### Statements -/

theorem stmt_line {e : Expr} {span : Span} :
    stmt g invoke (.line e span) ls m = expr g invoke e ls (m.record (.executing span)) := rfl

theorem stmt_block {b : Body} {span : Span} :
    stmt g invoke (.block b span) ls m = body g invoke b ls (m.record (.executing span)) := rfl

theorem stmt_cond {brs : List Branch} {o : Option Body} {span : Span} :
    stmt g invoke (.cond brs o span) ls m =
      branches g invoke brs (orElse g invoke o) ls (m.record (.executing span)) := rfl

/-- The code that a branch whose condition has a value leads to. -/
theorem branches_cons_of_done {e : Expr} {b : Body} {brs : List Branch} {otherwise : Exec Value}
    {ls₁ : Locals} {m₁ : Machine} (h : expr g invoke e ls m = .done v ls₁ m₁) :
    branches g invoke (.mk e b :: brs) otherwise ls m =
      if v.truth then body g invoke b ls₁ m₁ else branches g invoke brs otherwise ls₁ m₁ := by
  rw [branches_cons, Exec.bind_of_done h]
  split
  · rfl
  · rfl

theorem branches_cons_of_stopped {e : Expr} {b : Body} {brs : List Branch} {otherwise : Exec Value}
    (h : expr g invoke e ls m = .stopped why m') :
    branches g invoke (.mk e b :: brs) otherwise ls m = .stopped why m' := by
  rw [branches_cons, Exec.bind_of_stopped h]

theorem stmts_nil : stmts g invoke [] ls m = .done ls.last ls m := rfl

theorem stmts_cons_of_done {s : Stmt} {ss : List Stmt} {ls₁ : Locals} {m₁ : Machine}
    (h : stmt g invoke s ls m = .done v ls₁ m₁) :
    stmts g invoke (s :: ss) ls m = stmts g invoke ss (ls₁.setLast v) m₁ := by
  rw [stmts_cons, Exec.bind_of_done h, Exec.bind_of_done (Exec.setLast_apply v)]

theorem stmts_cons_of_stopped {s : Stmt} {ss : List Stmt}
    (h : stmt g invoke s ls m = .stopped why m') :
    stmts g invoke (s :: ss) ls m = .stopped why m' := by
  rw [stmts_cons, Exec.bind_of_stopped h]

end Eval

end Offside
