import Offside.Syntax

/-!
# Induction over programs, and their items

* induction over expressions, and over statements together with bodies: `Expr.induction`,
  `Stmt.Cases`;
* **the items of a program**: every name, expression, statement, body and function that stands
  somewhere in it, `Expr.items`, `Stmt.items`, `Body.items`, `Program.items`.
-/

namespace Offside

/-! ### Inductions -/

/-- Induction over expressions. -/
theorem Expr.induction {P : Expr → Prop}
    (call : ∀ f args span, (∀ a ∈ args, P a) → P (.call f args span))
    (assign : ∀ x e span, P e → P (.assign x e span))
    (name : ∀ x span, P (.name x span))
    (string : ∀ lit span, P (.string lit span))
    (number : ∀ κ cs span, P (.number κ cs span)) : ∀ e, P e
  | .call f args span => call f args span fun a _ =>
    Expr.induction call assign name string number a
  | .assign x e span => assign x e span (Expr.induction call assign name string number e)
  | .name x span => name x span
  | .string lit span => string lit span
  | .number κ cs span => number κ cs span

/-- What an induction over statements and bodies has to show. -/
structure Stmt.Cases (P : Stmt → Prop) (Q : Body → Prop) : Prop where
  line : ∀ e span, P (.line e span)
  block : ∀ b span, Q b → P (.block b span)
  cond : ∀ brs o span, (∀ br ∈ brs, Q br.body) → (∀ b ∈ o, Q b) → P (.cond brs o span)
  body : ∀ ss span, (∀ s ∈ ss, P s) → Q (.mk ss span)

mutual

/-- Induction over statements together with bodies. -/
theorem Stmt.Cases.stmt {P : Stmt → Prop} {Q : Body → Prop} (h : Stmt.Cases P Q) : ∀ s, P s
  | .line e span => h.line e span
  | .block b span => h.block b span (h.body' b)
  | .cond brs o span => h.cond brs o span (h.branches brs) fun b _ => h.body' b

theorem Stmt.Cases.branches {P : Stmt → Prop} {Q : Body → Prop} (h : Stmt.Cases P Q) :
    ∀ brs : List Branch, ∀ br ∈ brs, Q br.body
  | .mk _ body :: brs, br, hbr => by
    rcases List.mem_cons.mp hbr with rfl | hbr
    · exact h.body' body
    · exact h.branches brs br hbr

/-- Induction over bodies together with statements. -/
theorem Stmt.Cases.body' {P : Stmt → Prop} {Q : Body → Prop} (h : Stmt.Cases P Q) : ∀ b, Q b
  | .mk ss span => h.body ss span fun s _ => h.stmt s

end

/-! ### The items of a program -/

/-- A part of a program with a place of its own. -/
inductive Item where
  | ident (x : Ident)
  | expr (e : Expr)
  | stmt (s : Stmt)
  | body (b : Body)
  | function (f : FunDef)

/-- Where the item stands. -/
def Item.span : Item → Span
  | .ident x => x.span
  | .expr e => e.span
  | .stmt s => s.span
  | .body b => b.span
  | .function f => f.span

mutual

/-- The expression and all items in it. -/
def Expr.items : Expr → List Item
  | .call f args span => .expr (.call f args span) :: .ident f :: Expr.itemsAll args
  | .assign x e span => .expr (.assign x e span) :: .ident x :: e.items
  | .name x span => [.expr (.name x span), .ident x]
  | .string lit span => [.expr (.string lit span)]
  | .number κ text span => [.expr (.number κ text span)]

/-- All items in some expressions. -/
def Expr.itemsAll : List Expr → List Item
  | [] => []
  | e :: es => e.items ++ Expr.itemsAll es

end

mutual

/-- The statement and all items in it. -/
def Stmt.items : Stmt → List Item
  | .line e span => .stmt (.line e span) :: e.items
  | .block b span => .stmt (.block b span) :: b.items
  | .cond brs o span => .stmt (.cond brs o span) :: (Branch.itemsAll brs ++ Body.itemsOption o)

/-- All items in some branches. -/
def Branch.itemsAll : List Branch → List Item
  | [] => []
  | .mk e b :: brs => e.items ++ (b.items ++ Branch.itemsAll brs)

/-- The body and all items in it. -/
def Body.items : Body → List Item
  | .mk ss span => .body (.mk ss span) :: Stmt.itemsAll ss

/-- All items in a body, if there is one. -/
def Body.itemsOption : Option Body → List Item
  | none => []
  | some b => b.items

/-- All items in some statements. -/
def Stmt.itemsAll : List Stmt → List Item
  | [] => []
  | s :: ss => s.items ++ Stmt.itemsAll ss

end

/-- The function and all items in it. -/
def FunDef.items (f : FunDef) : List Item :=
  .function f :: .ident f.name :: (f.params.map .ident ++ f.body.items)

/-- **All items of a program.** -/
def Program.items (p : Program) : List Item :=
  p.funs.flatMap FunDef.items

theorem Expr.mem_items_self (e : Expr) : .expr e ∈ e.items := by
  cases e <;> simp [Expr.items]

theorem Expr.mem_itemsAll_iff {i : Item} {es : List Expr} :
    i ∈ Expr.itemsAll es ↔ ∃ e ∈ es, i ∈ e.items := by
  induction es with
  | nil => simp [Expr.itemsAll]
  | cons e es ih => simp [Expr.itemsAll, ih]

theorem Stmt.mem_itemsAll_iff {i : Item} {ss : List Stmt} :
    i ∈ Stmt.itemsAll ss ↔ ∃ s ∈ ss, i ∈ s.items := by
  induction ss with
  | nil => simp [Stmt.itemsAll]
  | cons s ss ih => simp [Stmt.itemsAll, ih]

theorem Branch.mem_itemsAll_iff {i : Item} {brs : List Branch} :
    i ∈ Branch.itemsAll brs ↔ ∃ br ∈ brs, i ∈ br.test.items ∨ i ∈ br.body.items := by
  induction brs with
  | nil => simp [Branch.itemsAll]
  | cons br brs ih =>
    obtain ⟨e, b⟩ := br
    simp [Branch.itemsAll, Branch.test, Branch.body, ih, or_assoc]

theorem Body.mem_itemsOption_iff {i : Item} {o : Option Body} :
    i ∈ Body.itemsOption o ↔ ∃ b ∈ o, i ∈ b.items := by
  cases o <;> simp [Body.itemsOption]

/-! ### The statements among the items -/

/-- Expressions hold no statements. -/
theorem Expr.stmt_notMem_items (e : Expr) (s : Stmt) : .stmt s ∉ e.items := by
  induction e using Expr.induction with
  | call f args span ih =>
    simp only [Expr.items, List.mem_cons, Expr.mem_itemsAll_iff, reduceCtorEq, false_or, not_exists,
      not_and]
    exact ih
  | assign x e span ih => simpa [Expr.items] using ih
  | name | string | number => simp [Expr.items]

section
variable {s : Stmt}

theorem Stmt.mem_items_line {e : Expr} {span : Span} :
    .stmt s ∈ (Stmt.line e span).items ↔ s = .line e span := by
  simp [Stmt.items, Expr.stmt_notMem_items]

theorem Stmt.mem_items_block {b : Body} {span : Span} :
    .stmt s ∈ (Stmt.block b span).items ↔ s = .block b span ∨ .stmt s ∈ b.items := by
  simp [Stmt.items]

theorem Stmt.mem_items_cond {brs : List Branch} {o : Option Body} {span : Span} :
    .stmt s ∈ (Stmt.cond brs o span).items ↔
      s = .cond brs o span ∨ (∃ br ∈ brs, .stmt s ∈ br.body.items) ∨ ∃ b ∈ o, .stmt s ∈ b.items := by
  simp [Stmt.items, Branch.mem_itemsAll_iff, Body.mem_itemsOption_iff, Expr.stmt_notMem_items]

theorem Body.stmt_mem_items_mk {ss : List Stmt} {span : Span} :
    .stmt s ∈ (Body.mk ss span).items ↔ ∃ s' ∈ ss, .stmt s ∈ s'.items := by
  simp [Body.items, Stmt.mem_itemsAll_iff]

end

end Offside
