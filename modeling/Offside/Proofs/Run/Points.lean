import Mathlib.Logic.Relation
import Offside.Proofs.Syntax
import Offside.Proofs.Run.Laws

/-!
# The points of a run

A point of a run is a piece of code that is about to run in the call of some function, with the
variables and the machine that it finds.  Running it leads to further points: its parts one after the
other, and the bodies of the functions that it calls.

* **the points that a point leads to**: `Next`, `Reaches`;
* the reasons to stop that arise at a point itself: `Point.Raises`, and what they are blamed on:
  `Expr.site`;
* **every reason to stop arises somewhere**: `Point.exists_raises`, `exists_raises_of_invoke`; and
  what arises is why the run stops: `Point.run_eq_stopped_iff`;
* the code of all points is code of the program: `Point.InProgram`, `Reaches.inProgram`;
* **what code leaves of the variables**: `keeps_expr`, `keeps_body`, `Code.keeps`.
-/

namespace Offside

/-! ### Points -/

/-- A piece of code. -/
inductive Code where
  | expr (e : Expr)
  /-- Arguments that are still to be evaluated. -/
  | exprs (es : List Expr)
  | stmt (s : Stmt)
  /-- Branches that are still to be tried, and what else to run. -/
  | branches (brs : List Branch) (otherwise : Option Body)
  | body (b : Body)
  /-- Statements that are still to be run. -/
  | stmts (ss : List Stmt)

/-- All items in a piece of code. -/
def Code.items : Code → List Item
  | .expr e => e.items
  | .exprs es => Expr.itemsAll es
  | .stmt s => s.items
  | .branches brs o => Branch.itemsAll brs ++ Body.itemsOption o
  | .body b => b.items
  | .stmts ss => Stmt.itemsAll ss

/-- What is left of a step without its value. -/
def Step.void {α : Type} : Step α → Step Unit
  | .done _ ls m => .done () ls m
  | .stopped why m => .stopped why m

@[simp] theorem Step.void_eq_stopped_iff {α : Type} {s : Step α} {why : Stop} {m : Machine} :
    s.void = .stopped why m ↔ s = .stopped why m := by
  cases s <;> simp [Step.void]

@[simp] theorem Step.void_eq_done_iff {α : Type} {s : Step α} {ls : Locals} {m : Machine} :
    s.void = .done () ls m ↔ ∃ a, s = .done a ls m := by
  cases s <;> simp [Step.void]

/-- Runs a piece of code, whatever its value. -/
def Code.run (g : Globals) (invoke : Invoke) (c : Code) (ls : Locals) (m : Machine) : Step Unit :=
  match c with
  | .expr e => (Eval.expr g invoke e ls m).void
  | .exprs es => (Eval.exprs g invoke es ls m).void
  | .stmt s => (Eval.stmt g invoke s ls m).void
  | .branches brs o => (Eval.branches g invoke brs (Eval.orElse g invoke o) ls m).void
  | .body b => (Eval.body g invoke b ls m).void
  | .stmts ss => (Eval.stmts g invoke ss ls m).void

/-- A piece of code that is about to run. -/
structure Point where
  /-- The function in whose call it runs. -/
  function : FunDef
  /-- How deep further calls may be nested. -/
  depth : Nat
  code : Code
  locals : Locals
  machine : Machine

/-- Runs the code of a point. -/
def Point.run (g : Globals) (p : Point) : Step Unit :=
  p.code.run g (invoke g p.depth) p.locals p.machine

section
variable (g : Globals)

/-- **The points that a point leads to at once.**  In each case the evaluator itself gives the
variables and the machine that the next piece of code finds. -/
inductive Next : Point → Point → Prop
  | args {f : FunDef} {d : Nat} {x : Ident} {es : List Expr} {span : Span} {ls : Locals}
      {m : Machine} {h : Function} : Scope.callee ⟨g, ls⟩ x span = .ok h →
      Next ⟨f, d, .expr (.call x es span), ls, m⟩ ⟨f, d, .exprs es, ls, m⟩
  | call {f f' : FunDef} {d : Nat} {x : Ident} {es : List Expr} {span : Span} {ls ls' : Locals}
      {m m' : Machine} {vs : List Value} : Scope.callee ⟨g, ls⟩ x span = .ok (.user f') →
      Eval.exprs g (invoke g (d + 1)) es ls m = .done vs ls' m' → f'.arity = vs.length →
      Next ⟨f, d + 1, .expr (.call x es span), ls, m⟩
        ⟨f', d, .body f'.body, .fresh f'.params vs, m'.record (.calling f'.name.name vs)⟩
  | value {f : FunDef} {d : Nat} {x : Ident} {e : Expr} {span : Span} {ls : Locals} {m : Machine} :
      Next ⟨f, d, .expr (.assign x e span), ls, m⟩ ⟨f, d, .expr e, ls, m⟩
  | firstExpr {f : FunDef} {d : Nat} {e : Expr} {es : List Expr} {ls : Locals} {m : Machine} :
      Next ⟨f, d, .exprs (e :: es), ls, m⟩ ⟨f, d, .expr e, ls, m⟩
  | nextExprs {f : FunDef} {d : Nat} {e : Expr} {es : List Expr} {ls ls' : Locals} {m m' : Machine}
      {v : Value} : Eval.expr g (invoke g d) e ls m = .done v ls' m' →
      Next ⟨f, d, .exprs (e :: es), ls, m⟩ ⟨f, d, .exprs es, ls', m'⟩
  | line {f : FunDef} {d : Nat} {e : Expr} {span : Span} {ls : Locals} {m : Machine} :
      Next ⟨f, d, .stmt (.line e span), ls, m⟩ ⟨f, d, .expr e, ls, m.record (.executing span)⟩
  | block {f : FunDef} {d : Nat} {b : Body} {span : Span} {ls : Locals} {m : Machine} :
      Next ⟨f, d, .stmt (.block b span), ls, m⟩ ⟨f, d, .body b, ls, m.record (.executing span)⟩
  | cond {f : FunDef} {d : Nat} {brs : List Branch} {o : Option Body} {span : Span} {ls : Locals}
      {m : Machine} : Next ⟨f, d, .stmt (.cond brs o span), ls, m⟩
        ⟨f, d, .branches brs o, ls, m.record (.executing span)⟩
  | test {f : FunDef} {d : Nat} {e : Expr} {b : Body} {brs : List Branch} {o : Option Body}
      {ls : Locals} {m : Machine} :
      Next ⟨f, d, .branches (.mk e b :: brs) o, ls, m⟩ ⟨f, d, .expr e, ls, m⟩
  | chosen {f : FunDef} {d : Nat} {e : Expr} {b : Body} {brs : List Branch} {o : Option Body}
      {ls ls' : Locals} {m m' : Machine} {v : Value} :
      Eval.expr g (invoke g d) e ls m = .done v ls' m' → v.truth = true →
      Next ⟨f, d, .branches (.mk e b :: brs) o, ls, m⟩ ⟨f, d, .body b, ls', m'⟩
  | skipped {f : FunDef} {d : Nat} {e : Expr} {b : Body} {brs : List Branch} {o : Option Body}
      {ls ls' : Locals} {m m' : Machine} {v : Value} :
      Eval.expr g (invoke g d) e ls m = .done v ls' m' → v.truth = false →
      Next ⟨f, d, .branches (.mk e b :: brs) o, ls, m⟩ ⟨f, d, .branches brs o, ls', m'⟩
  | otherwise {f : FunDef} {d : Nat} {b : Body} {ls : Locals} {m : Machine} :
      Next ⟨f, d, .branches [] (some b), ls, m⟩ ⟨f, d, .body b, ls, m⟩
  | body {f : FunDef} {d : Nat} {ss : List Stmt} {span : Span} {ls : Locals} {m : Machine} :
      Next ⟨f, d, .body (.mk ss span), ls, m⟩ ⟨f, d, .stmts ss, ls, m⟩
  | firstStmt {f : FunDef} {d : Nat} {s : Stmt} {ss : List Stmt} {ls : Locals} {m : Machine} :
      Next ⟨f, d, .stmts (s :: ss), ls, m⟩ ⟨f, d, .stmt s, ls, m⟩
  | nextStmts {f : FunDef} {d : Nat} {s : Stmt} {ss : List Stmt} {ls ls' : Locals} {m m' : Machine}
      {v : Value} : Eval.stmt g (invoke g d) s ls m = .done v ls' m' →
      Next ⟨f, d, .stmts (s :: ss), ls, m⟩ ⟨f, d, .stmts ss, ls'.setLast v, m'⟩

/-- **The points that a point leads to** in the end. -/
def Reaches : Point → Point → Prop := Relation.ReflTransGen (Next g)

/-- **The reasons to stop that arise at a point itself**, and not in code that it leads to. -/
inductive Point.Raises : Point → Stop → Prop
  | callee {f : FunDef} {d : Nat} {x : Ident} {es : List Expr} {span : Span} {ls : Locals}
      {m : Machine} {failure : Failure} : Scope.callee ⟨g, ls⟩ x span = .error failure →
      Raises ⟨f, d, .expr (.call x es span), ls, m⟩ (.failed failure)
  | builtin {f : FunDef} {d : Nat} {x : Ident} {es : List Expr} {span : Span} {ls ls' : Locals}
      {m m' : Machine} {b : Builtin} {vs : List Value} {cause : Cause} :
      Scope.callee ⟨g, ls⟩ x span = .ok (.builtin b) →
      Eval.exprs g (invoke g d) es ls m = .done vs ls' m' →
      (b.call vs m'.console).1 = .error cause →
      Raises ⟨f, d, .expr (.call x es span), ls, m⟩ (.failed ⟨cause, some span⟩)
  | arity {f f' : FunDef} {d : Nat} {x : Ident} {es : List Expr} {span : Span} {ls ls' : Locals}
      {m m' : Machine} {vs : List Value} : Scope.callee ⟨g, ls⟩ x span = .ok (.user f') →
      Eval.exprs g (invoke g d) es ls m = .done vs ls' m' → f'.arity ≠ vs.length →
      Raises ⟨f, d, .expr (.call x es span), ls, m⟩
        (.failed ⟨.arity f'.name.name f'.arity vs.length, some span⟩)
  | tooDeep {f f' : FunDef} {x : Ident} {es : List Expr} {span : Span} {ls ls' : Locals}
      {m m' : Machine} {vs : List Value} : Scope.callee ⟨g, ls⟩ x span = .ok (.user f') →
      Eval.exprs g (invoke g 0) es ls m = .done vs ls' m' → f'.arity = vs.length →
      Raises ⟨f, 0, .expr (.call x es span), ls, m⟩ .tooDeep
  | assign {f : FunDef} {d : Nat} {x : Ident} {e : Expr} {span : Span} {ls ls' : Locals}
      {m m' : Machine} {v : Value} {failure : Failure} :
      Eval.expr g (invoke g d) e ls m = .done v ls' m' →
      Scope.assign ⟨g, ls'⟩ x v = .error failure →
      Raises ⟨f, d, .expr (.assign x e span), ls, m⟩ (.failed failure)
  | name {f : FunDef} {d : Nat} {x : Ident} {span : Span} {ls : Locals} {m : Machine}
      {failure : Failure} : Scope.value ⟨g, ls⟩ x = .error failure →
      Raises ⟨f, d, .expr (.name x span), ls, m⟩ (.failed failure)
  | string {f : FunDef} {d : Nat} {lit : StrLit} {span : Span} {ls : Locals} {m : Machine}
      {cause : Cause} : lit.eval ⟨g, ls⟩ = .error cause →
      Raises ⟨f, d, .expr (.string lit span), ls, m⟩ (.failed ⟨cause, some span⟩)
  | integer {f : FunDef} {d : Nat} {text : String} {span : Span} {ls : Locals} {m : Machine} :
      Decimal.literal? text = none →
      Raises ⟨f, d, .expr (.number .dec text span), ls, m⟩ (.invalidInteger text)
  | number {f : FunDef} {d : Nat} {κ : NumberKind} {text : String} {span : Span} {ls : Locals}
      {m : Machine} : κ ≠ .dec → Raises ⟨f, d, .expr (.number κ text span), ls, m⟩
        (.failed ⟨.notImplemented κ.describe, some span⟩)

end

variable {g : Globals} {d : Nat}

/-! ### Every reason to stop arises somewhere -/

/-- **What a failure of an expression itself is blamed on:** the name that it uses or assigns, and
otherwise the whole expression. -/
def Expr.site : Expr → Item
  | .call f args span => .expr (.call f args span)
  | .assign x _ _ => .ident x
  | .name x _ => .ident x
  | .string lit span => .expr (.string lit span)
  | .number κ text span => .expr (.number κ text span)

theorem Expr.site_mem_items (e : Expr) : e.site ∈ e.items := by
  cases e <;> simp [Expr.site, Expr.items]

/-- A failure arises at an expression, and is blamed on it or on its name. -/
theorem Point.Raises.exists_site {p : Point} {failure : Failure}
    (h : p.Raises g (.failed failure)) :
    ∃ e, p.code = .expr e ∧ failure.span = some e.site.span := by
  cases h with
  | callee hf =>
    refine ⟨_, rfl, ?_⟩
    unfold Scope.callee at hf
    split at hf
    · cases hf
    · cases hf
      rfl
    · cases hf
      rfl
  | assign he hset =>
    refine ⟨_, rfl, ?_⟩
    unfold Scope.assign at hset
    split at hset
    · cases hset
      rfl
    · cases hset
  | name hx =>
    refine ⟨_, rfl, ?_⟩
    unfold Scope.value at hx
    split at hx
    · cases hx
    · cases hx
      rfl
    · cases hx
      rfl
  | builtin | arity | string | number => exact ⟨_, rfl, rfl⟩

/-- A failure that arises at a point has the span of an item there. -/
theorem Point.Raises.exists_item {p : Point} {failure : Failure}
    (h : p.Raises g (.failed failure)) : ∃ i ∈ p.code.items, failure.span = some i.span := by
  obtain ⟨e, hcode, hspan⟩ := h.exists_site
  rw [hcode]
  exact ⟨e.site, e.site_mem_items, hspan⟩

/-- The blame for what arises at a point is not put on a call around it. -/
theorem Point.Raises.blamed_eq {p : Point} {why : Stop} (h : p.Raises g why) (site : Span) :
    Exec.blamed site why = why := by
  cases why with
  | failed failure =>
    obtain ⟨i, -, hspan⟩ := h.exists_item
    obtain ⟨cause, o⟩ := failure
    cases hspan
    rfl
  | invalidInteger text => rfl
  | tooDeep => rfl

/-- Code whose reasons to stop arise somewhere on the way. -/
def Traced (g : Globals) (d : Nat) (c : Code) : Prop :=
  ∀ {f : FunDef} {ls : Locals} {m m' : Machine} {why : Stop},
    c.run g (invoke g d) ls m = .stopped why m' →
      ∃ q, Reaches g ⟨f, d, c, ls, m⟩ q ∧ q.Raises g why

theorem exists_raises_of_next {p p' : Point} {why : Stop} (h : Next g p p')
    (h' : ∃ q, Reaches g p' q ∧ q.Raises g why) : ∃ q, Reaches g p q ∧ q.Raises g why := by
  obtain ⟨q, hq, hraises⟩ := h'
  exact ⟨q, .head h hq, hraises⟩

theorem traced_exprs {es : List Expr} (h : ∀ e ∈ es, Traced g d (.expr e)) :
    Traced g d (.exprs es) := by
  intro f ls m m' why hrun
  induction es generalizing ls m with
  | nil => simp [Code.run, Eval.exprs_nil] at hrun
  | cons e es ih =>
    simp only [Code.run, Step.void_eq_stopped_iff, Eval.exprs_cons_eq_stopped_iff] at hrun
    rcases hrun with he | ⟨v, ls₁, m₁, he, hes⟩
    · exact exists_raises_of_next .firstExpr (h e (by simp) (Step.void_eq_stopped_iff.mpr he))
    · refine exists_raises_of_next (.nextExprs he) ?_
      exact ih (fun e' he' => h e' (List.mem_cons_of_mem e he')) (Step.void_eq_stopped_iff.mpr hes)

/-- **A call:** what stops it arises in an argument, at the call itself or in the body that it
runs. -/
theorem traced_call (hcalls : ∀ d', d = d' + 1 → ∀ b, Traced g d' (.body b)) {x : Ident}
    {es : List Expr} {span : Span} (h : ∀ e ∈ es, Traced g d (.expr e)) :
    Traced g d (.expr (.call x es span)) := by
  intro f ls m m' why hrun
  simp only [Code.run, Step.void_eq_stopped_iff, Eval.call_eq_stopped_iff] at hrun
  rcases hrun with ⟨failure, hf, rfl, -⟩ | ⟨c, hf, hes | ⟨vs, ls₁, m₁, why', hes, happly, rfl⟩⟩
  · exact ⟨_, .refl, .callee hf⟩
  · exact exists_raises_of_next (.args hf) (traced_exprs h (Step.void_eq_stopped_iff.mpr hes))
  · rcases Function.apply_eq_error happly with ⟨b, cause, rfl, hcause, rfl⟩ |
      ⟨c, rfl, harity, rfl⟩ | ⟨c, rfl, harity, hinvoke⟩
    · exact ⟨_, .refl, .builtin hf hes hcause⟩
    · exact ⟨_, .refl, .arity hf hes harity⟩
    · cases d with
      | zero =>
        cases hinvoke
        exact ⟨_, .refl, .tooDeep hf hes harity⟩
      | succ d =>
        have hbody := Exec.answer_eq_error_iff.mp hinvoke
        obtain ⟨q, hq, hraises⟩ := hcalls d rfl c.body (Step.void_eq_stopped_iff.mpr hbody)
        rw [hraises.blamed_eq]
        exact ⟨q, .head (.call hf hes harity) hq, hraises⟩

theorem traced_expr (hcalls : ∀ d', d = d' + 1 → ∀ b, Traced g d' (.body b)) (e : Expr) :
    Traced g d (.expr e) := by
  induction e using Expr.induction with
  | call x es span ih => exact traced_call hcalls ih
  | assign x e span ih =>
    intro f ls m m' why hrun
    simp only [Code.run, Step.void_eq_stopped_iff, Eval.assign_eq_stopped_iff] at hrun
    rcases hrun with he | ⟨v, ls₁, failure, he, hset, rfl⟩
    · exact exists_raises_of_next .value (ih (Step.void_eq_stopped_iff.mpr he))
    · exact ⟨_, .refl, .assign he hset⟩
  | name x span =>
    intro f ls m m' why hrun
    simp only [Code.run, Step.void_eq_stopped_iff, Eval.name_eq_stopped_iff] at hrun
    obtain ⟨failure, hx, rfl, -⟩ := hrun
    exact ⟨_, .refl, .name hx⟩
  | string lit span =>
    intro f ls m m' why hrun
    simp only [Code.run, Step.void_eq_stopped_iff, Eval.string_eq_stopped_iff] at hrun
    obtain ⟨cause, hlit, rfl, -⟩ := hrun
    exact ⟨_, .refl, .string hlit⟩
  | number κ text span =>
    intro f ls m m' why hrun
    simp only [Code.run, Step.void_eq_stopped_iff, Eval.number_eq_stopped_iff] at hrun
    rcases hrun with ⟨-, ⟨rfl, htext, rfl⟩ | ⟨hκ, rfl⟩⟩
    · exact ⟨_, .refl, .integer htext⟩
    · exact ⟨_, .refl, .number hκ⟩

theorem traced_stmts {ss : List Stmt} (h : ∀ s ∈ ss, Traced g d (.stmt s)) :
    Traced g d (.stmts ss) := by
  intro f ls m m' why hrun
  induction ss generalizing ls m with
  | nil => simp [Code.run, Eval.stmts_nil] at hrun
  | cons s ss ih =>
    rw [Code.run, Step.void_eq_stopped_iff] at hrun
    cases hs : Eval.stmt g (invoke g d) s ls m with
    | done v ls₁ m₁ =>
      rw [Eval.stmts_cons_of_done hs] at hrun
      refine exists_raises_of_next (.nextStmts hs) ?_
      exact ih (fun s' hs' => h s' (List.mem_cons_of_mem s hs')) (Step.void_eq_stopped_iff.mpr hrun)
    | stopped why₁ m₁ =>
      rw [Eval.stmts_cons_of_stopped hs] at hrun
      cases hrun
      exact exists_raises_of_next .firstStmt (h s (by simp) (Step.void_eq_stopped_iff.mpr hs))

theorem traced_branches {brs : List Branch} {o : Option Body} (he : ∀ e, Traced g d (.expr e))
    (hbrs : ∀ br ∈ brs, Traced g d (.body br.body)) (ho : ∀ b ∈ o, Traced g d (.body b)) :
    Traced g d (.branches brs o) := by
  intro f ls m m' why hrun
  rw [Code.run, Step.void_eq_stopped_iff] at hrun
  induction brs generalizing ls m with
  | nil =>
    rw [Eval.branches_nil] at hrun
    cases o with
    | none =>
      rw [Eval.orElse_none] at hrun
      cases hrun
    | some b =>
      rw [Eval.orElse_some] at hrun
      exact exists_raises_of_next .otherwise (ho b rfl (Step.void_eq_stopped_iff.mpr hrun))
  | cons br brs ih =>
    obtain ⟨e, b⟩ := br
    cases htest : Eval.expr g (invoke g d) e ls m with
    | done v ls₁ m₁ =>
      rw [Eval.branches_cons_of_done htest] at hrun
      by_cases hv : v.truth = true
      · rw [if_pos hv] at hrun
        refine exists_raises_of_next (.chosen htest hv) ?_
        exact hbrs _ (List.mem_cons_self ..) (Step.void_eq_stopped_iff.mpr hrun)
      · rw [if_neg hv] at hrun
        refine exists_raises_of_next (.skipped htest (Bool.not_eq_true _ ▸ hv)) ?_
        exact ih (fun br' hbr' => hbrs br' (List.mem_cons_of_mem _ hbr')) hrun
    | stopped why₁ m₁ =>
      rw [Eval.branches_cons_of_stopped htest] at hrun
      cases hrun
      exact exists_raises_of_next .test (he e (Step.void_eq_stopped_iff.mpr htest))

theorem traced_cases (he : ∀ e, Traced g d (.expr e)) :
    Stmt.Cases (fun s => Traced g d (.stmt s)) (fun b => Traced g d (.body b)) where
  line e span := by
    intro f ls m m' why hrun
    rw [Code.run, Step.void_eq_stopped_iff, Eval.stmt_line] at hrun
    exact exists_raises_of_next .line (he e (Step.void_eq_stopped_iff.mpr hrun))
  block b span hb := by
    intro f ls m m' why hrun
    rw [Code.run, Step.void_eq_stopped_iff, Eval.stmt_block] at hrun
    exact exists_raises_of_next .block (hb (Step.void_eq_stopped_iff.mpr hrun))
  cond brs o span hbrs ho := by
    intro f ls m m' why hrun
    rw [Code.run, Step.void_eq_stopped_iff, Eval.stmt_cond] at hrun
    refine exists_raises_of_next .cond ?_
    exact traced_branches he hbrs ho (Step.void_eq_stopped_iff.mpr hrun)
  body ss span hss := by
    intro f ls m m' why hrun
    rw [Code.run, Step.void_eq_stopped_iff, Eval.body_mk] at hrun
    exact exists_raises_of_next .body (traced_stmts hss (Step.void_eq_stopped_iff.mpr hrun))

/-- Induction on how deep calls are nested, and for each depth over the code. -/
theorem traced_depth (d : Nat) :
    (∀ e, Traced g d (.expr e)) ∧ (∀ s, Traced g d (.stmt s)) ∧ ∀ b, Traced g d (.body b) := by
  induction d with
  | zero =>
    have he := traced_expr (d := 0) (g := g) fun d' h => by cases h
    exact ⟨he, (traced_cases he).stmt, (traced_cases he).body'⟩
  | succ d ih =>
    have he := traced_expr (d := d + 1) (g := g) fun d' h => by
      cases h
      exact ih.2.2
    exact ⟨he, (traced_cases he).stmt, (traced_cases he).body'⟩

/-- **Every reason to stop arises somewhere:** code that stops leads to a point at which just that
reason arises. -/
theorem Point.exists_raises {p : Point} {why : Stop} {m' : Machine}
    (h : p.run g = .stopped why m') : ∃ q, Reaches g p q ∧ q.Raises g why := by
  obtain ⟨f, d, c, ls, m⟩ := p
  obtain ⟨he, hs, hb⟩ := traced_depth (g := g) d
  cases c with
  | expr e => exact he e h
  | exprs es => exact traced_exprs (fun e _ => he e) h
  | stmt s => exact hs s h
  | branches brs o => exact traced_branches he (fun br _ => hb br.body) (fun b _ => hb b) h
  | body b => exact hb b h
  | stmts ss => exact traced_stmts (fun s _ => hs s) h

/-! ### What arises is why the run stops -/

/-- Code stops for what arises at its own point. -/
theorem Point.Raises.run_eq {p : Point} {why : Stop} (h : p.Raises g why) :
    ∃ m', p.run g = .stopped why m' := by
  unfold Point.run Code.run
  cases h with
  | callee hf =>
    exact ⟨_, Step.void_eq_stopped_iff.mpr (Eval.call_eq_stopped_iff.mpr
      (Or.inl ⟨_, hf, rfl, rfl⟩))⟩
  | builtin hf hes hcause =>
    obtain ⟨m', hrun⟩ := Eval.call_eq_stopped_of_fails hf hes (.builtin hcause)
    exact ⟨m', Step.void_eq_stopped_iff.mpr hrun⟩
  | arity hf hes harity =>
    obtain ⟨m', hrun⟩ := Eval.call_eq_stopped_of_fails hf hes (.arity harity)
    exact ⟨m', Step.void_eq_stopped_iff.mpr hrun⟩
  | @tooDeep _ f' _ _ _ _ _ _ m₁ vs hf hes harity =>
    have happly : (Function.user f').apply (invoke g 0) vs m₁ =
        (.error .tooDeep, m₁.record (.calling f'.name.name vs)) := by
      rw [Function.apply_of_arity_eq harity]
      rfl
    exact ⟨_, Step.void_eq_stopped_iff.mpr (Eval.call_eq_stopped_iff.mpr
      (Or.inr ⟨_, hf, Or.inr ⟨vs, _, m₁, _, hes, happly, rfl⟩⟩))⟩
  | assign he hset =>
    exact ⟨_, Step.void_eq_stopped_iff.mpr (Eval.assign_eq_stopped_iff.mpr
      (Or.inr ⟨_, _, _, he, hset, rfl⟩))⟩
  | name hx =>
    exact ⟨_, Step.void_eq_stopped_iff.mpr (Eval.name_eq_stopped_iff.mpr ⟨_, hx, rfl, rfl⟩)⟩
  | string hlit =>
    exact ⟨_, Step.void_eq_stopped_iff.mpr (Eval.string_eq_stopped_iff.mpr ⟨_, hlit, rfl, rfl⟩)⟩
  | integer htext =>
    exact ⟨_, Step.void_eq_stopped_iff.mpr (Eval.number_eq_stopped_iff.mpr
      ⟨rfl, Or.inl ⟨rfl, htext, rfl⟩⟩)⟩
  | number hκ =>
    exact ⟨_, Step.void_eq_stopped_iff.mpr (Eval.number_eq_stopped_iff.mpr
      ⟨rfl, Or.inr ⟨hκ, rfl⟩⟩)⟩

/-- **Code stops where code that it leads to stops**, for the same reason if no call puts the blame
for it on itself. -/
theorem Next.run_eq {p q : Point} {why : Stop} {m' : Machine} (h : Next g p q)
    (hwhy : ∀ site, Exec.blamed site why = why) (hq : q.run g = .stopped why m') :
    p.run g = .stopped why m' := by
  unfold Point.run Code.run at hq ⊢
  cases h with
  | args hf =>
    simp only [Step.void_eq_stopped_iff] at hq ⊢
    exact Eval.call_eq_stopped_iff.mpr (Or.inr ⟨_, hf, Or.inl hq⟩)
  | @call _ f' _ x es span _ _ _ m₁ vs hf hes harity =>
    simp only [Step.void_eq_stopped_iff] at hq ⊢
    have hinvoke := Exec.answer_eq_error_iff.mpr hq
    refine Eval.call_eq_stopped_iff.mpr (Or.inr ⟨_, hf, Or.inr ⟨vs, _, m₁, why, hes, ?_, ?_⟩⟩)
    · rw [Function.apply_of_arity_eq harity]
      exact hinvoke
    · exact (hwhy span).symm
  | value =>
    simp only [Step.void_eq_stopped_iff] at hq ⊢
    exact Eval.assign_eq_stopped_iff.mpr (Or.inl hq)
  | firstExpr =>
    simp only [Step.void_eq_stopped_iff] at hq ⊢
    exact Eval.exprs_cons_eq_stopped_iff.mpr (Or.inl hq)
  | nextExprs he =>
    simp only [Step.void_eq_stopped_iff] at hq ⊢
    exact Eval.exprs_cons_eq_stopped_iff.mpr (Or.inr ⟨_, _, _, he, hq⟩)
  | line | block | cond | otherwise | body => exact hq
  | test =>
    simp only [Step.void_eq_stopped_iff] at hq ⊢
    exact Eval.branches_cons_of_stopped hq
  | chosen he hv =>
    simp only [Step.void_eq_stopped_iff] at hq ⊢
    rw [Eval.branches_cons_of_done he, if_pos hv]
    exact hq
  | skipped he hv =>
    simp only [Step.void_eq_stopped_iff] at hq ⊢
    rw [Eval.branches_cons_of_done he, hv]
    exact hq
  | firstStmt =>
    simp only [Step.void_eq_stopped_iff] at hq ⊢
    exact Eval.stmts_cons_of_stopped hq
  | nextStmts hs =>
    simp only [Step.void_eq_stopped_iff] at hq ⊢
    rw [Eval.stmts_cons_of_done hs]
    exact hq

/-- **What arises is why the run stops:** code stops for a reason if and only if it leads to a point
at which that reason arises. -/
theorem Point.run_eq_stopped_iff {p : Point} {why : Stop} :
    (∃ m', p.run g = .stopped why m') ↔ ∃ q, Reaches g p q ∧ q.Raises g why := by
  constructor
  · rintro ⟨m', h⟩
    exact Point.exists_raises h
  · rintro ⟨q, hreach, hraises⟩
    obtain ⟨m', hq⟩ := hraises.run_eq
    refine ⟨m', ?_⟩
    induction hreach using Relation.ReflTransGen.head_induction_on with
    | refl => exact hq
    | head hnext _ ih => exact hnext.run_eq hraises.blamed_eq ih

/-! ### Where runs start and what they lead to -/

/-- The point at which the body of a called function starts. -/
def Point.start (f : FunDef) (d : Nat) (args : List Value) (m : Machine) : Point :=
  ⟨f, d, .body f.body, .fresh f.params args, m⟩

/-- A call of a function of the program that gives no value is cut off, or something arises in what
its body leads to. -/
theorem exists_raises_of_invoke {f : FunDef} {args : List Value} {m m' : Machine} {why : Stop}
    (h : invoke g d f args m = (.error why, m')) (hwhy : why ≠ .tooDeep) :
    ∃ d' q, d = d' + 1 ∧ Reaches g (.start f d' args m) q ∧ q.Raises g why := by
  cases d with
  | zero =>
    cases h
    exact absurd rfl hwhy
  | succ d =>
    have hbody : (Point.start f d args m).run g = .stopped why m' :=
      Step.void_eq_stopped_iff.mpr (Exec.answer_eq_error_iff.mp h)
    obtain ⟨q, hq, hraises⟩ := Point.exists_raises hbody
    exact ⟨d, q, rfl, hq, hraises⟩

/-- What holds at a point and is kept from point to point holds at all points that it leads to. -/
theorem Reaches.invariant {I : Point → Prop} (hnext : ∀ {p q}, Next g p q → I p → I q)
    {p q : Point} (h : Reaches g p q) (hp : I p) : I q := by
  induction h with
  | refl => exact hp
  | tail _ hstep ih => exact hnext hstep ih

theorem Globals.get?_eq_user {x : String} {f : FunDef}
    (h : g.get? x = some (.function (.user f))) : f ∈ g.funs ∧ f.name.name = x := by
  unfold Globals.get? at h
  split at h
  · cases h
  · split at h
    · cases h
    · obtain ⟨f', hf, heq⟩ := Option.map_eq_some_iff.mp h
      cases heq
      refine ⟨List.mem_of_find?_eq_some hf, ?_⟩
      exact beq_iff_eq.mp (List.find?_some (p := fun f : FunDef => f.name.name == x) hf)

theorem Globals.get?_eq_builtin {x : String} {b : Builtin}
    (h : g.get? x = some (.function (.builtin b))) : b.name = x := by
  unfold Globals.get? at h
  split at h
  · next b' hb =>
    cases h
    exact beq_iff_eq.mp (List.find?_some (p := fun b : Builtin => b.name == x) hb)
  · split at h
    · cases h
    · obtain ⟨f', hf, heq⟩ := Option.map_eq_some_iff.mp h
      cases heq

/-- A name that is called means a function of that name among the globals. -/
theorem Scope.callee_eq_ok {ls : Locals} {x : Ident} {site : Span} {h : Function}
    (hf : Scope.callee ⟨g, ls⟩ x site = .ok h) : g.get? x.name = some (.function h) := by
  unfold Scope.callee at hf
  split at hf
  · next h' hget =>
    cases hf
    unfold Scope.get? at hget
    split at hget
    · cases hget
    · exact hget
  · cases hf
  · cases hf

/-- A point at which code of a function of the program runs in a call of that function. -/
structure Point.InProgram (g : Globals) (p : Point) : Prop where
  function : p.function ∈ g.funs
  code : ∀ i ∈ p.code.items, i ∈ p.function.body.items

/-- The code of a point leads to parts of it only, or to the body of a function. -/
theorem Next.inProgram {p q : Point} (h : Next g p q) (hp : p.InProgram g) : q.InProgram g := by
  obtain ⟨hfun, hcode⟩ := hp
  cases h with
  | call hf hes harity => exact ⟨(Globals.get?_eq_user (Scope.callee_eq_ok hf)).1, fun i hi => hi⟩
  | args | value | firstExpr | nextExprs | line | block | cond | test | chosen | skipped |
      otherwise | body | firstStmt | nextStmts =>
    refine ⟨hfun, fun i hi => hcode i ?_⟩
    simp only [Code.items, Expr.items, Expr.itemsAll, Stmt.items, Stmt.itemsAll, Branch.itemsAll,
      Body.items, Body.itemsOption, List.mem_cons, List.mem_append] at hi ⊢
    grind

/-- **A run of a function of the program stays in the program.** -/
theorem Reaches.inProgram {f : FunDef} {args : List Value} {m : Machine} {q : Point}
    (h : Reaches g (.start f d args m) q) (hf : f ∈ g.funs) : q.InProgram g :=
  h.invariant Next.inProgram ⟨hf, fun _ hi => hi⟩

/-! ### What code leaves of the variables -/

/-- Items of which every assignment is to a variable of `S`. -/
def Assigning (S : String → Prop) (items : List Item) : Prop :=
  ∀ {x : Ident} {e : Expr} {span : Span}, .expr (.assign x e span) ∈ items → S x.name

theorem Assigning.mono {S : String → Prop} {is js : List Item} (h : Assigning S js)
    (hsub : ∀ i ∈ is, i ∈ js) : Assigning S is :=
  fun hmem => h (hsub _ hmem)

section
variable {I : Locals → Prop} {S : String → Prop} {invoke : Invoke}

/-- Code that keeps something of the variables when it runs to its end. -/
def Keeps (I : Locals → Prop) (g : Globals) (invoke : Invoke) (c : Code) : Prop :=
  ∀ {ls ls' : Locals} {m m' : Machine}, c.run g invoke ls m = .done () ls' m' → I ls → I ls'

theorem keeps_exprs {es : List Expr} (h : ∀ e ∈ es, Keeps I g invoke (.expr e)) :
    Keeps I g invoke (.exprs es) := by
  intro ls ls' m m' hrun hls
  induction es generalizing ls m with
  | nil =>
    rw [Code.run, Eval.exprs_nil] at hrun
    cases hrun
    exact hls
  | cons e es ih =>
    simp only [Code.run, Step.void_eq_done_iff, Eval.exprs_cons_eq_done_iff] at hrun
    obtain ⟨_, v, vs, ls₁, m₁, rfl, he, hes⟩ := hrun
    have hls₁ := h e (by simp) (Step.void_eq_done_iff.mpr ⟨v, he⟩) hls
    exact ih (fun e' he' => h e' (List.mem_cons_of_mem e he')) (Step.void_eq_done_iff.mpr ⟨vs, hes⟩)
      hls₁

/-- An expression changes variables by its assignments only. -/
theorem keeps_expr (hassign : ∀ {ls ls' : Locals} {x : Ident} {v : Value}, S x.name → I ls →
    Scope.assign ⟨g, ls⟩ x v = .ok ls' → I ls') {e : Expr} (hS : Assigning S e.items) :
    Keeps I g invoke (.expr e) := by
  intro ls ls' m m' hrun hls
  rw [Code.run, Step.void_eq_done_iff] at hrun
  obtain ⟨v, hrun⟩ := hrun
  induction e using Expr.induction generalizing ls ls' m m' v with
  | call x es span ih =>
    obtain ⟨h, vs, m₁, -, hes, -⟩ := Eval.call_eq_done_iff.mp hrun
    refine keeps_exprs (fun e he => ?_) (Step.void_eq_done_iff.mpr ⟨vs, hes⟩) hls
    have hSe : Assigning S e.items := hS.mono fun i hi => by
      simp [Expr.items, Expr.mem_itemsAll_iff.mpr ⟨e, he, hi⟩]
    intro ls ls' m m' hrun hls
    obtain ⟨v, hrun⟩ := Step.void_eq_done_iff.mp hrun
    exact ih e he hSe hls v hrun
  | assign x e span ih =>
    obtain ⟨ls₁, he, hset⟩ := Eval.assign_eq_done_iff.mp hrun
    have hSe : Assigning S e.items := hS.mono fun i hi => by simp [Expr.items, hi]
    exact hassign (hS (Expr.mem_items_self _)) (ih hSe hls v he) hset
  | name x span =>
    obtain ⟨-, rfl, -⟩ := Eval.name_eq_done_iff.mp hrun
    exact hls
  | string lit span =>
    obtain ⟨_, -, -, rfl, -⟩ := Eval.string_eq_done_iff.mp hrun
    exact hls
  | number κ text span =>
    obtain ⟨-, -, rfl, -⟩ := Eval.number_eq_done_iff.mp hrun
    exact hls

theorem keeps_stmts (hlast : ∀ {ls : Locals} (v : Value), I ls → I (ls.setLast v))
    {ss : List Stmt} (h : ∀ s ∈ ss, Keeps I g invoke (.stmt s)) : Keeps I g invoke (.stmts ss) := by
  intro ls ls' m m' hrun hls
  induction ss generalizing ls m with
  | nil =>
    rw [Code.run, Eval.stmts_nil] at hrun
    cases hrun
    exact hls
  | cons s ss ih =>
    cases hs : Eval.stmt g invoke s ls m with
    | done v ls₁ m₁ =>
      rw [Code.run, Eval.stmts_cons_of_done hs] at hrun
      have hls₁ := h s (by simp) (Step.void_eq_done_iff.mpr ⟨v, hs⟩) hls
      exact ih (fun s' hs' => h s' (List.mem_cons_of_mem s hs')) hrun (hlast v hls₁)
    | stopped why m₁ =>
      rw [Code.run, Eval.stmts_cons_of_stopped hs] at hrun
      cases hrun

theorem keeps_branches {brs : List Branch} {o : Option Body}
    (htests : ∀ br ∈ brs, Keeps I g invoke (.expr br.test))
    (hbrs : ∀ br ∈ brs, Keeps I g invoke (.body br.body))
    (ho : ∀ b ∈ o, Keeps I g invoke (.body b)) : Keeps I g invoke (.branches brs o) := by
  intro ls ls' m m' hrun hls
  rw [Code.run] at hrun
  induction brs generalizing ls m with
  | nil =>
    rw [Eval.branches_nil] at hrun
    cases o with
    | none =>
      rw [Eval.orElse_none] at hrun
      cases hrun
      exact hls
    | some b =>
      rw [Eval.orElse_some] at hrun
      exact ho b rfl hrun hls
  | cons br brs ih =>
    obtain ⟨e, b⟩ := br
    cases htest : Eval.expr g invoke e ls m with
    | done v ls₁ m₁ =>
      rw [Eval.branches_cons_of_done htest] at hrun
      have hls₁ := htests _ (List.mem_cons_self ..) (Step.void_eq_done_iff.mpr ⟨v, htest⟩) hls
      by_cases hv : v.truth = true
      · rw [if_pos hv] at hrun
        exact hbrs _ (List.mem_cons_self ..) hrun hls₁
      · rw [if_neg hv] at hrun
        exact ih (fun br' hbr' => htests br' (List.mem_cons_of_mem _ hbr'))
          (fun br' hbr' => hbrs br' (List.mem_cons_of_mem _ hbr')) hrun hls₁
    | stopped why m₁ =>
      rw [Eval.branches_cons_of_stopped htest] at hrun
      cases hrun

section
variable (hassign : ∀ {ls ls' : Locals} {x : Ident} {v : Value}, S x.name → I ls →
    Scope.assign ⟨g, ls⟩ x v = .ok ls' → I ls')
  (hlast : ∀ {ls : Locals} (v : Value), I ls → I (ls.setLast v))
include hassign hlast

theorem keeps_cases :
    Stmt.Cases (fun s => Assigning S s.items → Keeps I g invoke (.stmt s))
      (fun b => Assigning S b.items → Keeps I g invoke (.body b)) where
  line e span := by
    intro hS ls ls' m m' hrun hls
    rw [Code.run, Eval.stmt_line] at hrun
    exact keeps_expr hassign (hS.mono fun i hi => by simp [Stmt.items, hi]) hrun hls
  block b span hb := by
    intro hS ls ls' m m' hrun hls
    rw [Code.run, Eval.stmt_block] at hrun
    exact hb (hS.mono fun i hi => by simp [Stmt.items, hi]) hrun hls
  cond brs o span hbrs ho := by
    intro hS ls ls' m m' hrun hls
    rw [Code.run, Eval.stmt_cond] at hrun
    refine keeps_branches (fun br hbr => ?_) (fun br hbr => ?_) (fun b hb => ?_) hrun hls
    · refine keeps_expr hassign (hS.mono fun i hi => ?_)
      simp [Stmt.items, Branch.mem_itemsAll_iff.mpr ⟨br, hbr, Or.inl hi⟩]
    · refine hbrs br hbr (hS.mono fun i hi => ?_)
      simp [Stmt.items, Branch.mem_itemsAll_iff.mpr ⟨br, hbr, Or.inr hi⟩]
    · refine ho b hb (hS.mono fun i hi => ?_)
      simp [Stmt.items, Body.mem_itemsOption_iff.mpr ⟨b, hb, hi⟩]
  body ss span hss := by
    intro hS ls ls' m m' hrun hls
    rw [Code.run, Eval.body_mk] at hrun
    refine keeps_stmts hlast (fun s hs => hss s hs (hS.mono fun i hi => ?_)) hrun hls
    simp [Body.items, Stmt.mem_itemsAll_iff.mpr ⟨s, hs, hi⟩]

/-- A body keeps what its own assignments and recording keep of the variables. -/
theorem keeps_body {b : Body} (hS : Assigning S b.items) : Keeps I g invoke (.body b) :=
  (keeps_cases hassign hlast).body' b hS

end

/-- **What assignments and recording keep of the variables, all code keeps.** -/
theorem Code.keeps (hassign : ∀ {ls ls' : Locals} {x : Ident} {v : Value}, I ls →
    Scope.assign ⟨g, ls⟩ x v = .ok ls' → I ls')
    (hlast : ∀ {ls : Locals} (v : Value), I ls → I (ls.setLast v)) (c : Code) :
    Keeps I g invoke c := by
  have he : ∀ e, Keeps I g invoke (.expr e) :=
    fun e => keeps_expr (S := fun _ => True) (fun _ => hassign) fun _ => trivial
  have hb : ∀ b, Keeps I g invoke (.body b) :=
    fun b => keeps_body (S := fun _ => True) (fun _ => hassign) hlast fun _ => trivial
  have hs : ∀ s, Keeps I g invoke (.stmt s) :=
    fun s => (keeps_cases (S := fun _ => True) (fun _ => hassign) hlast).stmt s fun _ => trivial
  intro ls ls' m m'
  cases c with
  | expr e => exact he e
  | exprs es => exact keeps_exprs fun e _ => he e
  | stmt s => exact hs s
  | branches brs o =>
    exact keeps_branches (fun br _ => he br.test) (fun br _ => hb br.body) fun b _ => hb b
  | body b => exact hb b
  | stmts ss => exact keeps_stmts hlast fun s _ => hs s

end

end Offside
