import Offside.Sample
import Offside.Proofs.Run.Mentions

/-!
# What a body depends on

A body may be run in any variables.  The bound on nested calls can cut it off, and apart from that
makes no difference: code that is not cut off gives the same under every higher bound, its variables
and the log included (`Exec.Within`, with one law for each form of code).  So there is one thing at
most that comes of a body (`Body.Runs`), and two runs of it in different variables can be compared.

* **a higher bound changes nothing but code that was cut off**: `within_invoke`, `Eval.within_body`;
* what comes of a body: `Body.Runs`, and there is one such thing only: `Body.Runs.unique`;
* **a body depends only on the names that it mentions**: `Body.runs_of_agree`.
-/

namespace Offside

variable {α β : Type}

/-! ### Code under a higher bound -/

/-- The code was cut off for nesting calls too deep. -/
def Step.IsCut (s : Step α) : Prop :=
  ∃ m, s = .stopped .tooDeep m

/-- **Code under a bound and under a higher one:** the first is cut off, or both give the same. -/
def Exec.Within (x y : Exec α) : Prop :=
  ∀ ls m, (x ls m).IsCut ∨ y ls m = x ls m

/-- Ways to run functions under a bound and under a higher one. -/
def Invoke.Within (invoke invoke' : Invoke) : Prop :=
  ∀ f args m, (invoke f args m).1 = .error .tooDeep ∨ invoke' f args m = invoke f args m

namespace Exec

theorem Within.refl (x : Exec α) : Within x x :=
  fun _ _ => Or.inr rfl

theorem Within.bind {x y : Exec α} {f h : α → Exec β} (hx : Within x y)
    (hf : ∀ a, Within (f a) (h a)) : Within (x >>= f) (y >>= h) := by
  intro ls m
  rcases hx ls m with ⟨m₁, hcut⟩ | heq
  · exact Or.inl ⟨m₁, bind_of_stopped hcut f⟩
  · cases hrun : x ls m with
    | done a ls₁ m₁ =>
      rw [bind_of_done hrun, bind_of_done (heq.trans hrun)]
      exact hf a ls₁ m₁
    | stopped why m₁ =>
      rw [bind_of_stopped hrun, bind_of_stopped (heq.trans hrun)]
      exact Or.inr rfl

theorem within_callAt {c c' : Machine → Answer}
    (h : ∀ m, (c m).1 = .error .tooDeep ∨ c' m = c m) (site : Span) :
    Within (callAt site c) (callAt site c') := by
  intro ls m
  rcases h m with hcut | heq
  · exact Or.inl ⟨(c m).2, callAt_of_error (Prod.ext hcut rfl) site⟩
  · refine Or.inr ?_
    unfold callAt
    rw [heq]

theorem Within.answer {x y : Exec Value} (h : Within x y) (ls : Locals) (m : Machine) :
    (x.answer ls m).1 = .error .tooDeep ∨ y.answer ls m = x.answer ls m := by
  unfold Exec.answer
  rcases h ls m with ⟨m₁, hcut⟩ | heq
  · rw [hcut]
    exact Or.inl rfl
  · rw [heq]
    exact Or.inr rfl

end Exec

theorem Function.apply_within {invoke invoke' : Invoke} (hi : invoke.Within invoke') (f : Function)
    (args : List Value) (m : Machine) :
    (f.apply invoke args m).1 = .error .tooDeep ∨ f.apply invoke' args m = f.apply invoke args m := by
  cases f with
  | builtin b => exact Or.inr rfl
  | user f =>
    by_cases harity : f.arity = args.length
    · rw [Function.apply_of_arity_eq harity, Function.apply_of_arity_eq harity]
      exact hi f args _
    · rw [Function.apply_of_arity_ne harity, Function.apply_of_arity_ne harity]
      exact Or.inr rfl

namespace Eval

open Exec

variable {g : Globals} {invoke invoke' : Invoke} (hi : invoke.Within invoke')
include hi

omit hi in
theorem within_exprs {es : List Expr}
    (h : ∀ e ∈ es, Within (expr g invoke e) (expr g invoke' e)) :
    Within (exprs g invoke es) (exprs g invoke' es) := by
  induction es with
  | nil => exact .refl _
  | cons e es ih =>
    rw [exprs_cons, exprs_cons]
    refine (h e (List.mem_cons_self ..)).bind fun v => ?_
    exact (ih fun e' he' => h e' (List.mem_cons_of_mem e he')).bind fun vs => .refl _

theorem within_expr (e : Expr) : Within (expr g invoke e) (expr g invoke' e) := by
  induction e using Expr.induction with
  | call x es span ih =>
    rw [expr_call, expr_call]
    refine (Within.refl _).bind fun f => (within_exprs ih).bind fun vs => ?_
    exact within_callAt (Function.apply_within hi f vs) span
  | assign x e span ih => exact ih.bind fun v => .refl _
  | name x span => exact .refl _
  | string lit span => exact .refl _
  | number κ text span => exact .refl _

theorem within_branches {brs : List Branch} {o : Option Body}
    (hbrs : ∀ br ∈ brs, Within (body g invoke br.body) (body g invoke' br.body))
    (ho : ∀ b ∈ o, Within (body g invoke b) (body g invoke' b)) :
    Within (branches g invoke brs (orElse g invoke o))
      (branches g invoke' brs (orElse g invoke' o)) := by
  induction brs with
  | nil =>
    cases o with
    | none => exact .refl _
    | some b => exact ho b rfl
  | cons br brs ih =>
    obtain ⟨e, b⟩ := br
    rw [branches_cons, branches_cons]
    refine (within_expr hi e).bind fun v => ?_
    cases v.truth with
    | true => exact hbrs _ (List.mem_cons_self ..)
    | false => exact ih fun br' hbr' => hbrs br' (List.mem_cons_of_mem _ hbr')

omit hi in
theorem within_stmts {ss : List Stmt}
    (h : ∀ s ∈ ss, Within (stmt g invoke s) (stmt g invoke' s)) :
    Within (stmts g invoke ss) (stmts g invoke' ss) := by
  induction ss with
  | nil => exact .refl _
  | cons s ss ih =>
    rw [stmts_cons, stmts_cons]
    refine (h s (List.mem_cons_self ..)).bind fun v => (Within.refl _).bind fun _ => ?_
    exact ih fun s' hs' => h s' (List.mem_cons_of_mem s hs')

theorem within_cases : Stmt.Cases (fun s => Within (stmt g invoke s) (stmt g invoke' s))
    (fun b => Within (body g invoke b) (body g invoke' b)) where
  line e _ := (Within.refl _).bind fun _ => within_expr hi e
  block _ _ hb := (Within.refl _).bind fun _ => hb
  cond _ _ _ hbrs ho := (Within.refl _).bind fun _ => within_branches hi hbrs ho
  body _ _ hss := within_stmts hss

/-- **A body that is not cut off gives the same** where functions run under a higher bound. -/
theorem within_body (b : Body) : Within (body g invoke b) (body g invoke' b) :=
  (within_cases hi).body' b

end Eval

/-- **A higher bound changes nothing** but calls that were cut off. -/
theorem within_invoke (g : Globals) {d d' : Nat} (hd : d ≤ d') :
    (invoke g d).Within (invoke g d') := by
  induction d generalizing d' with
  | zero => exact fun f args m => Or.inl rfl
  | succ d ih =>
    obtain ⟨k, rfl⟩ := Nat.exists_eq_add_of_le hd
    rw [Nat.add_right_comm]
    intro f args m
    exact (Eval.within_body (ih (Nat.le_add_right d k)) f.body).answer _ m

/-! ### What comes of a body -/

namespace Body

/-- **What comes of a body** that is run in some variables: where it leaves them, with nested calls
bounded so that it is not cut off. -/
def Runs (g : Globals) (b : Body) (ls : Locals) (m : Machine) (r : Step Value) : Prop :=
  ¬ r.IsCut ∧ ∃ depth, Eval.body g (invoke g depth) b ls m = r

variable {g : Globals} {b : Body} {ls ls' : Locals} {m : Machine}

theorem Runs.of_le {d d' : Nat} (h : ¬ (Eval.body g (invoke g d) b ls m).IsCut) (hd : d ≤ d') :
    Eval.body g (invoke g d') b ls m = Eval.body g (invoke g d) b ls m :=
  (Eval.within_body (within_invoke g hd) b ls m).resolve_left h

/-- **One thing at most comes of a body.** -/
theorem Runs.unique {r r' : Step Value} (h : b.Runs g ls m r) (h' : b.Runs g ls m r') : r = r' := by
  obtain ⟨hr, d, rfl⟩ := h
  obtain ⟨hr', d', rfl⟩ := h'
  -- Both end as the run under the greater of the two bounds.
  rw [← of_le hr (Nat.le_max_left d d'), ← of_le hr' (Nat.le_max_right d d')]

/-! ### The names that matter -/

/-- **The names that a body mentions**: functions that it calls, variables that it assigns or uses,
and placeholders of its templates. -/
def mentions (b : Body) : List String :=
  b.items.flatMap Item.mentions

/-- The names that matter to a body: the last produced value, and the names that it mentions. -/
def Matters (b : Body) (x : String) : Prop :=
  x = "_" ∨ x ∈ b.mentions

theorem agrees_of_matters (g : Globals) (b : Body) (d : Nat) :
    Exec.Agrees b.Matters (Eval.body g (invoke g d) b) (Eval.body g (invoke g d) b) :=
  Eval.agrees_body (fun _ _ => rfl) (fun _ _ _ _ => rfl) (Or.inl rfl)
    (mention_flatMap_iff.mpr fun _ hx => Or.inr hx)

/-- Where the names that matter to a body mean the same, something alike comes of it. -/
theorem Runs.exists_of_agree {r : Step Value} (hruns : b.Runs g ls m r)
    (h : ls.AgreeOn b.Matters ls') : ∃ r', b.Runs g ls' m r' ∧ r.Agrees b.Matters r' := by
  obtain ⟨hr, d, rfl⟩ := hruns
  have hagrees := agrees_of_matters g b d ls ls' m h
  refine ⟨_, ⟨?_, d, rfl⟩, hagrees⟩
  rintro ⟨m', hcut⟩
  rw [hcut] at hagrees
  generalize hs : Eval.body g (invoke g d) b ls m = s at hagrees hr
  cases hagrees
  exact hr ⟨m', rfl⟩

/-- **A body depends only on the names that it mentions.**  In variables that agree on the last
produced value and on all these names, a body comes to an end in both or in neither; then it yields
the same value or fails with the same failure, the console and the log are the same, and the variables
that it leaves agree on these names again. -/
theorem runs_of_agree (g : Globals) (b : Body)
    (h : ∀ x, x = "_" ∨ x ∈ b.mentions → ls'.get? x = ls.get? x) (m : Machine) :
    ((∃ r, b.Runs g ls m r) ↔ ∃ r, b.Runs g ls' m r) ∧
    ∀ r r', b.Runs g ls m r → b.Runs g ls' m r' →
      (∃ why m', r = .stopped why m' ∧ r' = .stopped why m') ∨
      ∃ v ls₁ ls₁' m', r = .done v ls₁ m' ∧ r' = .done v ls₁' m' ∧
        ∀ x, x = "_" ∨ x ∈ b.mentions → ls₁'.get? x = ls₁.get? x := by
  refine ⟨⟨?_, ?_⟩, ?_⟩
  · rintro ⟨r, hruns⟩
    obtain ⟨r', hruns', -⟩ := hruns.exists_of_agree h
    exact ⟨r', hruns'⟩
  · rintro ⟨r, hruns⟩
    obtain ⟨r', hruns', -⟩ := hruns.exists_of_agree fun x hx => (h x hx).symm
    exact ⟨r', hruns'⟩
  · intro r r' hruns hruns'
    obtain ⟨r'', hruns'', hagrees⟩ := hruns.exists_of_agree h
    obtain rfl := hruns'.unique hruns''
    cases hagrees with
    | done hls => exact Or.inr ⟨_, _, _, _, rfl, rfl, hls⟩
    | stopped => exact Or.inl ⟨_, _, rfl, rfl⟩

/-- With the functions of `Sample.doubleCall`, in `do: total = f(n)` and then `"{total}"`: a variable `x`
does not matter, though `f` has a parameter of that name. -/
theorem runs_of_agree_double : ∃ ls₁ m',
    Body.Runs ⟨Sample.doubleCall.funs⟩
      (.mk [.doBlock [.ofExpr (.set "total" (.apply "f" [.var "n"]))],
        .ofExpr (.template "\x7btotal\x7d")] .initial)
      [("_", .empty), ("n", .int 2)] {} (.done (.str "4") ls₁ m') ∧
    ls₁.get? "total" = some (.int 4) := by
  let b : Body := .mk [.doBlock [.ofExpr (.set "total" (.apply "f" [.var "n"]))],
    .ofExpr (.template "\x7btotal\x7d")] .initial
  obtain ⟨ls₁, m', hruns, htotal⟩ : ∃ ls₁ m', b.Runs ⟨Sample.doubleCall.funs⟩
      [("_", .empty), ("x", .bool true), ("n", .int 2)] {} (.done (.str "4") ls₁ m') ∧
        ls₁.get? "total" = some (.int 4) :=
    ⟨_, _, ⟨by rintro ⟨_, ⟨⟩⟩, 1, rfl⟩, rfl⟩
  have hnames : ∀ x, x = "_" ∨ x ∈ b.mentions →
      Locals.get? [("_", .empty), ("n", .int 2)] x =
        Locals.get? [("_", .empty), ("x", .bool true), ("n", .int 2)] x := by
    have hmentions : b.mentions = ["total", "f", "n", "total"] := by decide +kernel
    simp [hmentions, Locals.get?]
  obtain ⟨hends, hsame⟩ := runs_of_agree ⟨Sample.doubleCall.funs⟩ b hnames {}
  obtain ⟨r', hruns'⟩ := hends.mp ⟨_, hruns⟩
  obtain ⟨why, m₁, hr, -⟩ | ⟨v, ls₂, ls₁', m₁, hr, rfl, hls⟩ := hsame _ _ hruns hruns'
  · cases hr
  · cases hr
    exact ⟨ls₁', m', hruns', (hls "total" (Or.inr (by decide +kernel))).trans htotal⟩

end Body

end Offside
