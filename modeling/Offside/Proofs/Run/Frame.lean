import Offside.Sample
import Offside.Proofs.Run.Scopes

/-!
# What code leaves of the variables

A variable changes where code assigns it, and the last produced value where a statement is run.  A
function that is called has variables of its own, so that a call by itself changes nothing; its
arguments may.

* the variables that code assigns: `Expr.targets`, `Body.targets`;
* what an expression leaves: `Eval.get?_of_expr`, `Eval.get?_last_of_expr`;
* what a body leaves: `Eval.get?_of_body`, and nothing is lost: `Code.keeps_bound`;
* **code changes what it assigns and nothing else**: `Eval.changes_confined`.
-/

namespace Offside

/-! ### Assigned variables -/

/-- The variable that an item assigns itself, if it is an assignment. -/
def Item.targets : Item → List String
  | .expr (.assign x _ _) => [x.name]
  | _ => []

/-- **The variables that an expression assigns**, in the arguments of calls as well. -/
def Expr.targets (e : Expr) : List String :=
  e.items.flatMap Item.targets

/-- **The variables that a body assigns**, in conditions and in arguments as well. -/
def Body.targets (b : Body) : List String :=
  b.items.flatMap Item.targets

/-- Items that do not assign a variable assign others only. -/
theorem assigning_ne {items : List Item} {x : String} (h : x ∉ items.flatMap Item.targets) :
    Assigning (· ≠ x) items := by
  rintro y e span hmem rfl
  exact h (List.mem_flatMap.mpr ⟨_, hmem, by simp [Item.targets]⟩)

/-- An assignment that goes through sets the variable, which has no predefined name. -/
theorem Scope.assign_eq_ok {g : Globals} {ls ls' : Locals} {x : Ident} {v : Value}
    (h : Scope.assign ⟨g, ls⟩ x v = .ok ls') :
    isReserved x.name = false ∧ ls' = ls.insert x.name v := by
  unfold Scope.assign at h
  split at h
  · cases h
  · next hprotected =>
    cases h
    rw [Scope.isProtected, Bool.or_eq_true, not_or, Bool.not_eq_true] at hprotected
    exact ⟨hprotected.1, rfl⟩

/-! ### Variables after code -/

variable {g : Globals} {invoke : Invoke} {ls ls' : Locals} {m m' : Machine} {v : Value}

/-- **No variable is lost.** -/
theorem Code.keeps_bound (x : String) (c : Code) :
    Keeps (fun ls => ls.get? x ≠ none) g invoke c := by
  have hinsert : ∀ (ls : Locals) (y : String) (v : Value), ls.get? x ≠ none →
      (ls.insert y v).get? x ≠ none := by
    intro ls y v hls
    rw [Locals.get?_insert]
    split
    · simp
    · exact hls
  have hassign : ∀ {ls ls' : Locals} {y : Ident} {v : Value}, ls.get? x ≠ none →
      Scope.assign ⟨g, ls⟩ y v = .ok ls' → ls'.get? x ≠ none := by
    intro ls ls' y v hls hset
    rw [(Scope.assign_eq_ok hset).2]
    exact hinsert ls y.name v hls
  intro ls ls' m m'
  exact c.keeps hassign fun v hls => hinsert _ _ v hls

namespace Eval

/-- A variable that an expression does not assign is as before. -/
theorem get?_of_expr {e : Expr} {x : String} (hx : x ∉ e.targets)
    (h : expr g invoke e ls m = .done v ls' m') : ls'.get? x = ls.get? x := by
  refine keeps_expr (I := fun l => l.get? x = ls.get? x) (S := (· ≠ x)) (fun hne hl hset => ?_)
    (assigning_ne hx) (Step.void_eq_done_iff.mpr ⟨v, h⟩) rfl
  rw [(Scope.assign_eq_ok hset).2, Locals.get?_insert_of_ne _ _ (Ne.symm hne), hl]

/-- **The last produced value is not changed by an expression**, not even if it tries to assign it. -/
theorem get?_last_of_expr {e : Expr} (h : expr g invoke e ls m = .done v ls' m') :
    ls'.get? "_" = ls.get? "_" := by
  refine keeps_expr (I := fun l => l.get? "_" = ls.get? "_") (S := fun _ => True)
    (fun {_ _ y _} _ hl hset => ?_) (fun _ => trivial) (Step.void_eq_done_iff.mpr ⟨v, h⟩) rfl
  obtain ⟨hreserved, rfl⟩ := Scope.assign_eq_ok hset
  have hne : "_" ≠ y.name := by
    intro heq
    rw [← heq, isReserved_last] at hreserved
    cases hreserved
  rw [Locals.get?_insert_of_ne _ _ hne, hl]

/-- A variable that a body does not assign is as before, the last produced value apart. -/
theorem get?_of_body {b : Body} {x : String} (hx : x ∉ b.targets) (hlast : x ≠ "_")
    (h : body g invoke b ls m = .done v ls' m') : ls'.get? x = ls.get? x := by
  refine keeps_body (I := fun l => l.get? x = ls.get? x) (S := (· ≠ x)) (fun hne hl hset => ?_)
    (fun w hl => ?_) (assigning_ne hx) (Step.void_eq_done_iff.mpr ⟨v, h⟩) rfl
  · rw [(Scope.assign_eq_ok hset).2, Locals.get?_insert_of_ne _ _ (Ne.symm hne), hl]
  · rw [Locals.setLast, Locals.lastName, Locals.get?_insert_of_ne _ _ hlast, hl]

/-- **Code changes what it assigns and nothing else.**  When an expression has a value or a body has
run to its end, a variable that is not assigned in it is as before, and none is gone.  Only statements
change the last produced value. -/
theorem changes_confined (g : Globals) (depth : Nat) {ls ls' : Locals} {m m' : Machine}
    {v : Value} :
    (∀ e : Expr, expr g (Offside.invoke g depth) e ls m = .done v ls' m' →
      (∀ x, x ∉ e.targets → ls'.get? x = ls.get? x) ∧ ls'.get? "_" = ls.get? "_" ∧
      ∀ x, ls.get? x ≠ none → ls'.get? x ≠ none) ∧
    (∀ b : Body, body g (Offside.invoke g depth) b ls m = .done v ls' m' →
      (∀ x, x ∉ b.targets → x ≠ "_" → ls'.get? x = ls.get? x) ∧
      ∀ x, ls.get? x ≠ none → ls'.get? x ≠ none) := by
  refine ⟨fun e h => ⟨?_, ?_, ?_⟩, fun b h => ⟨?_, ?_⟩⟩
  · exact fun x hx => get?_of_expr hx h
  · exact get?_last_of_expr h
  · exact fun x => Code.keeps_bound x (.expr e) (Step.void_eq_done_iff.mpr ⟨v, h⟩)
  · exact fun x hx hlast => get?_of_body hx hlast h
  · exact fun x => Code.keeps_bound x (.body b) (Step.void_eq_done_iff.mpr ⟨v, h⟩)

/-- In `do: f(y = 2)`, the body of `f` assigns a variable `x` of its own. -/
theorem changes_confined_call : ∃ ls' m',
    body ⟨[.ofStmts "f" ["a"] [.ofExpr (.set "x" (.ofInt 5))]]⟩
      (Offside.invoke ⟨[.ofStmts "f" ["a"] [.ofExpr (.set "x" (.ofInt 5))]]⟩ 1)
      (.mk [.doBlock [.ofExpr (.apply "f" [.set "y" (.ofInt 2)])]] .initial)
      [("_", .bool true), ("x", .int 1)] {} = .done (.int 5) ls' m' ∧
    ls'.get? "x" = some (.int 1) ∧ ls'.get? "_" ≠ none := by
  have h : ∃ ls' m', body ⟨[.ofStmts "f" ["a"] [.ofExpr (.set "x" (.ofInt 5))]]⟩
      (Offside.invoke ⟨[.ofStmts "f" ["a"] [.ofExpr (.set "x" (.ofInt 5))]]⟩ 1)
      (.mk [.doBlock [.ofExpr (.apply "f" [.set "y" (.ofInt 2)])]] .initial)
      [("_", .bool true), ("x", .int 1)] {} = .done (.int 5) ls' m' := ⟨_, _, rfl⟩
  obtain ⟨ls', m', h⟩ := h
  obtain ⟨hsame, hbound⟩ := (changes_confined _ 1).2 _ h
  exact ⟨ls', m', h, hsame "x" (by decide) (by decide), hbound "_" (by decide)⟩

end Eval

end Offside
