import Offside.Proofs.Run.Laws

/-!
# Code that runs to its end

Rules for showing what code does on given variables and a given console.  Each form of code has one
rule, which asks the same of the code that it leads to.  The log of a run is left out, so that the
rules hold whether one is kept or not.

* what a call returns: `Returns`; what code yields: `Exec.Yields`;
* **expressions**: `Eval.yields_name`, `Eval.yields_number`, `Eval.yields_string`, `Eval.yields_call`,
  `Eval.yields_builtin`, `Eval.yields_assign`;
* **statements**: `Eval.yields_line`, `Eval.yields_chosen`, `Eval.yields_otherwise`,
  `Eval.yields_single`, `Eval.yields_next`;
* **calls**: `Function.returns_builtin`, `Function.returns_user`, `returns_invoke`.
-/

namespace Offside

/-- A call returns `v` and turns the console `c` into `c'`. -/
def Returns (f : Machine → Answer) (c : Console) (v : Value) (c' : Console) : Prop :=
  ∀ m, m.console = c → ∃ m', f m = (.ok v, m') ∧ m'.console = c'

/-- **Code yields a value** on the variables `ls` and the console `c`, and turns them into `ls'` and
`c'`. -/
def Exec.Yields {α : Type} (x : Exec α) (ls : Locals) (c : Console) (a : α) (ls' : Locals)
    (c' : Console) : Prop :=
  ∀ m, m.console = c → ∃ m', x ls m = .done a ls' m' ∧ m'.console = c'

/-! ### Calls -/

namespace Function

variable {invoke : Invoke} {args : List Value} {v : Value} {c c' : Console}

theorem returns_builtin {b : Builtin} (h : b.call args c = (.ok v, c')) :
    Returns ((Function.builtin b).apply invoke args) c v c' := by
  rintro m rfl
  unfold Function.apply
  simp only [Machine.record_console, h]
  exact ⟨_, rfl, rfl⟩

theorem returns_user {f : FunDef} (harity : f.arity = args.length)
    (h : Returns (invoke f args) c v c') : Returns ((Function.user f).apply invoke args) c v c' := by
  rw [apply_of_arity_eq harity]
  intro m hm
  exact h _ hm

end Function

/-- **A function returns what its body yields** on variables of its own. -/
theorem returns_invoke {g : Globals} {d : Nat} {f : FunDef} {args : List Value} {v : Value}
    {ls : Locals} {c c' : Console}
    (h : (Eval.body g (invoke g d) f.body).Yields (.fresh f.params args) c v ls c') :
    Returns (invoke g (d + 1) f args) c v c' := by
  intro m hm
  obtain ⟨m', hbody, hm'⟩ := h m hm
  refine ⟨m', ?_, hm'⟩
  rw [invoke, Exec.answer, hbody]

namespace Eval

variable {g : Globals} {invoke : Invoke} {ls ls' ls₁ : Locals} {c c' c₁ : Console} {v : Value}
  {span : Span}

/-! ### Expressions -/

section
variable {x : Ident} {e : Expr} {es : List Expr} {vs : List Value}

theorem yields_name (h : Scope.value ⟨g, ls⟩ x = .ok v) :
    (expr g invoke (.name x span)).Yields ls c v ls c := by
  intro m hm
  exact ⟨m, name_eq_done_iff.mpr ⟨h, rfl, rfl⟩, hm⟩

theorem yields_number {text : String} {i : Int} (h : Decimal.literal? text = some i) :
    (expr g invoke (.number .dec text span)).Yields ls c (.int i) ls c := by
  intro m hm
  exact ⟨m, number_eq_done_iff.mpr ⟨rfl, ⟨i, h, rfl⟩, rfl, rfl⟩, hm⟩

theorem yields_string {lit : StrLit} {text : String} (h : lit.eval ⟨g, ls⟩ = .ok text) :
    (expr g invoke (.string lit span)).Yields ls c (.str text) ls c := by
  intro m hm
  exact ⟨m, string_eq_done_iff.mpr ⟨text, h, rfl, rfl, rfl⟩, hm⟩

theorem yields_exprs_nil : (exprs g invoke []).Yields ls c [] ls c := by
  intro m hm
  exact ⟨m, exprs_nil, hm⟩

theorem yields_exprs_cons (he : (expr g invoke e).Yields ls c v ls₁ c₁)
    (hes : (exprs g invoke es).Yields ls₁ c₁ vs ls' c') :
    (exprs g invoke (e :: es)).Yields ls c (v :: vs) ls' c' := by
  intro m hm
  obtain ⟨m₁, hv, hm₁⟩ := he m hm
  obtain ⟨m', hvs, hm'⟩ := hes m₁ hm₁
  exact ⟨m', exprs_cons_eq_done_iff.mpr ⟨v, vs, ls₁, m₁, rfl, hv, hvs⟩, hm'⟩

theorem yields_call {f : Function} (hf : Scope.callee ⟨g, ls⟩ x span = .ok f)
    (hes : (exprs g invoke es).Yields ls c vs ls' c₁) (h : Returns (f.apply invoke vs) c₁ v c') :
    (expr g invoke (.call x es span)).Yields ls c v ls' c' := by
  intro m hm
  obtain ⟨m₁, hvs, hm₁⟩ := hes m hm
  obtain ⟨m', hv, hm'⟩ := h m₁ hm₁
  exact ⟨m', call_eq_done_iff.mpr ⟨f, vs, m₁, hf, hvs, hv⟩, hm'⟩

theorem yields_builtin {b : Builtin} (hf : Scope.callee ⟨g, ls⟩ x span = .ok (.builtin b))
    (hes : (exprs g invoke es).Yields ls c vs ls' c₁) (h : b.call vs c₁ = (.ok v, c')) :
    (expr g invoke (.call x es span)).Yields ls c v ls' c' :=
  yields_call hf hes (Function.returns_builtin h)

theorem yields_assign (he : (expr g invoke e).Yields ls c v ls₁ c')
    (hset : Scope.assign ⟨g, ls₁⟩ x v = .ok ls') :
    (expr g invoke (.assign x e span)).Yields ls c v ls' c' := by
  intro m hm
  obtain ⟨m', hv, hm'⟩ := he m hm
  exact ⟨m', assign_eq_done_iff.mpr ⟨ls₁, hv, hset⟩, hm'⟩

end

/-! ### Statements -/

section
variable {e : Expr} {b : Body} {brs : List Branch}

theorem yields_line (h : (expr g invoke e).Yields ls c v ls' c') :
    (stmt g invoke (.line e span)).Yields ls c v ls' c' := by
  intro m hm
  exact h (m.record _) hm

/-- The first condition holds. -/
theorem yields_chosen {otherwise : Option Body} {w : Value}
    (he : (expr g invoke e).Yields ls c w ls₁ c₁) (hw : w.truth = true)
    (hb : (body g invoke b).Yields ls₁ c₁ v ls' c') :
    (stmt g invoke (.cond (.mk e b :: brs) otherwise span)).Yields ls c v ls' c' := by
  intro m hm
  obtain ⟨m₁, hw₁, hm₁⟩ := he (m.record (.executing span)) hm
  obtain ⟨m', hv, hm'⟩ := hb m₁ hm₁
  refine ⟨m', ?_, hm'⟩
  rw [stmt_cond, branches_cons_of_done hw₁, if_pos hw, hv]

/-- The only condition does not hold. -/
theorem yields_otherwise {b' : Body} {w : Value}
    (he : (expr g invoke e).Yields ls c w ls₁ c₁) (hw : w.truth = false)
    (hb : (body g invoke b').Yields ls₁ c₁ v ls' c') :
    (stmt g invoke (.cond [.mk e b] (some b') span)).Yields ls c v ls' c' := by
  intro m hm
  obtain ⟨m₁, hw₁, hm₁⟩ := he (m.record (.executing span)) hm
  obtain ⟨m', hv, hm'⟩ := hb m₁ hm₁
  refine ⟨m', ?_, hm'⟩
  rw [stmt_cond, branches_cons_of_done hw₁, hw, if_neg Bool.false_ne_true, branches_nil, orElse_some,
    hv]

theorem yields_next {s : Stmt} {ss : List Stmt} {w : Value}
    (hs : (stmt g invoke s).Yields ls c w ls₁ c₁)
    (hss : (body g invoke (.mk ss span)).Yields (ls₁.setLast w) c₁ v ls' c') :
    (body g invoke (.mk (s :: ss) span)).Yields ls c v ls' c' := by
  intro m hm
  obtain ⟨m₁, hw, hm₁⟩ := hs m hm
  obtain ⟨m', hv, hm'⟩ := hss m₁ hm₁
  refine ⟨m', ?_, hm'⟩
  rw [body_mk, stmts_cons_of_done hw]
  exact hv

/-- A body yields the value of its last statement. -/
theorem yields_single {s : Stmt} (hs : (stmt g invoke s).Yields ls c v ls' c') :
    (body g invoke (.mk [s] span)).Yields ls c v (ls'.setLast v) c' := by
  refine yields_next hs fun m hm => ⟨m, ?_, hm⟩
  rw [body_mk, stmts_nil, Locals.last, Locals.setLast, Locals.get?_insert_self]
  rfl

end

end Eval

end Offside
