import Offside.Proofs.Run.Depth

/-!
# Rewritten programs

Two ways to rewrite the bodies of a program leave what comes of it as it is.  A `do` block can be
replaced by its statements, because it shares the variables around it and has already recorded the
value that is recorded for it.  A chain of conditions can be replaced by nested conditions with an
`else` each, because conditions are not recorded, and because a body that holds nothing but a
condition records once more what has been recorded already.

* code that has recorded its value: `Exec.Settled`, `Eval.settled_body`, `Eval.settled_cond`;
* **rewriting that keeps the meaning of every body keeps that of every program**:
  `Faithful.runs_iff`;
* **blocks can be opened**: `Program.runs_flatten_iff`;
* **chains can be nested**: `Program.runs_nest_iff`.
-/

namespace Offside

/-! ### Code that has recorded its value -/

/-- Recording what is recorded already changes nothing. -/
theorem Locals.setLast_of_get? {ls : Locals} {v : Value} (h : ls.get? lastName = some v) :
    ls.setLast v = ls := by
  unfold setLast
  induction ls with
  | nil => simp [get?] at h
  | cons b ls ih =>
    obtain ⟨x, w⟩ := b
    by_cases hx : x = lastName
    · simp [get?, hx] at h
      simp [insert, hx, h]
    · simp [get?, hx] at h
      simpa [insert, hx] using ih (by simpa [get?] using h)

theorem Locals.Live.get?_last {ls : Locals} (h : ls.Live) :
    ls.get? lastName = some ls.last := by
  obtain ⟨v, hv⟩ := h
  unfold last
  rw [hv]
  rfl

/-- Code that has recorded the value that it yields. -/
def Exec.Settled (x : Exec Value) : Prop :=
  ∀ {ls ls' : Locals} {m m' : Machine} {v : Value}, ls.Live → x ls m = .done v ls' m' →
    ls'.get? Locals.lastName = some v

namespace Eval

variable {g : Globals} {invoke : Invoke}

theorem live_of_expr {e : Expr} {ls ls' : Locals} {m m' : Machine} {v : Value} (hls : ls.Live)
    (h : expr g invoke e ls m = .done v ls' m') : ls'.Live :=
  Code.keeps (I := Locals.Live) (fun hls hset => hls.assign hset) (fun v _ => Locals.live_setLast _ v)
    (.expr e) (Step.void_eq_done_iff.mpr ⟨v, h⟩) hls

theorem settled_stmts (ss : List Stmt) : (stmts g invoke ss).Settled := by
  intro ls ls' m m' v hls hrun
  induction ss generalizing ls m with
  | nil =>
    cases hrun
    exact hls.get?_last
  | cons s ss ih =>
    cases hs : stmt g invoke s ls m with
    | done w ls₁ m₁ =>
      rw [stmts_cons_of_done hs] at hrun
      exact ih (Locals.live_setLast ls₁ w) hrun
    | stopped why m₁ =>
      rw [stmts_cons_of_stopped hs] at hrun
      cases hrun

/-- A body yields what was recorded last. -/
theorem settled_body (b : Body) : (body g invoke b).Settled := by
  obtain ⟨ss, span⟩ := b
  exact settled_stmts ss

theorem settled_branches (brs : List Branch) (o : Option Body) :
    (branches g invoke brs (orElse g invoke o)).Settled := by
  intro ls ls' m m' v hls hrun
  induction brs generalizing ls m with
  | nil =>
    cases o with
    | none =>
      cases hrun
      exact hls.get?_last
    | some b => exact settled_body b hls hrun
  | cons br brs ih =>
    obtain ⟨e, b⟩ := br
    cases htest : expr g invoke e ls m with
    | done w ls₁ m₁ =>
      rw [branches_cons_of_done htest] at hrun
      have hls₁ := live_of_expr hls htest
      split at hrun
      · exact settled_body b hls₁ hrun
      · exact ih hls₁ hrun
    | stopped why m₁ =>
      rw [branches_cons_of_stopped htest] at hrun
      cases hrun

/-- **Statements one after the other:** the value of the first part is recorded already. -/
theorem stmts_append (ss ts : List Stmt) :
    stmts g invoke (ss ++ ts) = stmts g invoke ss >>= fun _ => stmts g invoke ts := by
  induction ss with
  | nil => rfl
  | cons s ss ih =>
    rw [List.cons_append, stmts_cons, stmts_cons, ih]
    simp only [bind_assoc]

end Eval

/-! ### Code that does the same -/

section
variable {α : Type}

open Pairing (same)

theorem alike_of_steps {x y : Exec α} (h : ∀ {ls : Locals} {m m' : Machine}, ls.Live →
    m.console = m'.console → same.Steps (x ls m) (y ls m')) : same.Alike x y :=
  ⟨h, fun hs => (Pairing.same_apart hs).elim⟩

/-- Code may be exchanged for code that gives the same on the variables of a call. -/
theorem Pairing.Alike.congr {x x' y y' : Exec α} (h : same.Alike x y)
    (hx : ∀ {ls : Locals} {m : Machine}, ls.Live → x' ls m = x ls m)
    (hy : ∀ {ls : Locals} {m : Machine}, ls.Live → y' ls m = y ls m) : same.Alike x' y' := by
  refine alike_of_steps fun hls hm => ?_
  rw [hx hls, hy hls]
  exact h.steps hls hm

end

/-- Recording a value once more changes nothing. -/
theorem Exec.Settled.bind {x : Exec Value} (hx : x.Settled) {α : Type} (k : Value → Exec α)
    {ls : Locals} {m : Machine} (hls : ls.Live) :
    (x >>= fun v => Exec.setLast v >>= fun _ => k v) ls m = (x >>= k) ls m := by
  cases hrun : x ls m with
  | done v ls' m' =>
    rw [bind_of_done hrun, bind_of_done hrun, bind_of_done (setLast_apply v),
      Locals.setLast_of_get? (hx hls hrun)]
  | stopped why m' => rw [bind_of_stopped hrun, bind_of_stopped hrun]

/-! ### Rewriting bodies -/

/-- A function with its body rewritten. -/
def FunDef.mapBody (φ : Body → Body) (f : FunDef) : FunDef :=
  { f with body := φ f.body }

/-- A program with all bodies of functions rewritten. -/
def Program.mapBodies (φ : Body → Body) (p : Program) : Program :=
  { p with funs := p.funs.map (FunDef.mapBody φ) }

/-- A way to rewrite bodies that keeps what they do, in all programs and whatever the functions of the
program are replaced by. -/
def Faithful (φ : Body → Body) : Prop :=
  ∀ {twin : FunDef → FunDef} {g g' : Globals} {invoke invoke' : Invoke}, Twins twin g g' →
    Pairing.same.Invokes twin invoke invoke' → ∀ b,
      Pairing.same.Alike (Eval.body g invoke b) (Eval.body g' invoke' (φ b))

section
variable {φ : Body → Body} {g : Globals}

theorem Globals.find?_mapBody (x : String) :
    Globals.find? ⟨g.funs.map (FunDef.mapBody φ)⟩ x = (g.find? x).map (FunDef.mapBody φ) := by
  unfold Globals.find?
  rw [List.find?_map]
  rfl

theorem Twins.mapBody : Twins (FunDef.mapBody φ) g ⟨g.funs.map (FunDef.mapBody φ)⟩ where
  get? x := by
    unfold Globals.get?
    rw [Globals.find?_mapBody]
    cases Builtin.named? x with
    | some b => rfl
    | none =>
      cases predefined? x with
      | some v => rfl
      | none => cases g.find? x <;> rfl
  name f := rfl
  params f := rfl

/-- Loading does not look at bodies. -/
theorem Globals.extend_mapBody (fs : List FunDef) :
    Globals.extend ⟨g.funs.map (FunDef.mapBody φ)⟩ (fs.map (FunDef.mapBody φ)) =
      (⟨(g.extend fs).1.funs.map (FunDef.mapBody φ)⟩, (g.extend fs).2) := by
  induction fs generalizing g with
  | nil => rfl
  | cons f fs ih =>
    have hoffence : Globals.offence? ⟨g.funs.map (FunDef.mapBody φ)⟩ (f.mapBody φ) =
        g.offence? f := by
      unfold Globals.offence?
      rw [Globals.find?_mapBody, Option.isSome_map]
      rfl
    rw [List.map_cons, Globals.extend, Globals.extend, hoffence]
    cases g.offence? f with
    | some x => rfl
    | none =>
      have h := ih (g := ⟨g.funs ++ [f]⟩)
      rwa [List.map_append] at h

/-- **Rewriting that keeps what bodies do keeps what comes of programs.** -/
theorem Faithful.runs_iff (h : Faithful φ) (p : Program) (c : Console) (r : Except Stop Value)
    (c' : Console) : (p.mapBodies φ).Runs c r c' ↔ p.Runs c r c' := by
  refine Program.runs_iff_of_same (fun d => ?_) r c'
  have hextend := Globals.extend_mapBody (φ := φ) (g := {}) p.funs
  refine Pairing.interpret rfl hextend .mapBody ?_ rfl
  exact Pairing.invokes_of_bodies .mapBody Pairing.invokes_zero (fun hi f => h .mapBody hi f.body) d

end

/-- The statements of a rewritten program are those of rewritten bodies. -/
theorem Program.stmt_mem_items_mapBodies {φ : Body → Body} {p : Program} {s : Stmt}
    (h : .stmt s ∈ (p.mapBodies φ).items) : ∃ f ∈ p.funs, .stmt s ∈ (φ f.body).items := by
  obtain ⟨f', hf', hs⟩ := List.mem_flatMap.mp h
  obtain ⟨f, hf, rfl⟩ := List.mem_map.mp hf'
  refine ⟨f, hf, ?_⟩
  simpa [FunDef.items, FunDef.mapBody] using hs

/-! ### Opening blocks -/

mutual

/-- The statements that stand for a statement once all blocks are opened. -/
def Stmt.flatten : Stmt → List Stmt
  | .line e span => [.line e span]
  | .block b _ => b.flatten.stmts
  | .cond brs o span => [.cond (Branch.flattenAll brs) (Body.flattenOption o) span]

/-- Branches with all blocks in them opened. -/
def Branch.flattenAll : List Branch → List Branch
  | [] => []
  | .mk test b :: brs => .mk test b.flatten :: Branch.flattenAll brs

/-- A body with all blocks in it opened. -/
def Body.flatten : Body → Body
  | .mk ss span => .mk (Stmt.flattenAll ss) span

/-- An `else` body with all blocks in it opened. -/
def Body.flattenOption : Option Body → Option Body
  | none => none
  | some b => some b.flatten

/-- Statements with all blocks in them opened. -/
def Stmt.flattenAll : List Stmt → List Stmt
  | [] => []
  | s :: ss => s.flatten ++ Stmt.flattenAll ss

end

/-- **A program with all blocks opened**, at every depth. -/
def Program.flatten (p : Program) : Program :=
  p.mapBodies Body.flatten

theorem Branch.flattenAll_eq_map (brs : List Branch) :
    Branch.flattenAll brs = brs.map (Branch.map Body.flatten) := by
  induction brs with
  | nil => rfl
  | cons br brs ih =>
    obtain ⟨e, b⟩ := br
    rw [Branch.flattenAll, ih]
    rfl

theorem Body.flattenOption_eq_map (o : Option Body) :
    Body.flattenOption o = o.map Body.flatten := by
  cases o <;> rfl

theorem Stmt.flattenAll_eq_flatMap (ss : List Stmt) :
    Stmt.flattenAll ss = ss.flatMap Stmt.flatten := by
  induction ss with
  | nil => rfl
  | cons s ss ih => rw [Stmt.flattenAll, ih, List.flatMap_cons]

section
variable {twin : FunDef → FunDef} {g g' : Globals} {invoke invoke' : Invoke}

open Pairing

/-- A block before further statements goes like its opened statements before those. -/
theorem alike_opened {b : Body} (span : Span) {ss ss' : List Stmt}
    (hb : same.Alike (Eval.body g invoke b) (Eval.body g' invoke' b.flatten))
    (hss : same.Alike (Eval.stmts g invoke ss) (Eval.stmts g' invoke' ss')) :
    same.Alike (Eval.stmts g invoke (.block b span :: ss))
      (Eval.stmts g' invoke' (b.flatten.stmts ++ ss')) := by
  have hblock : (Eval.stmt g invoke (.block b span)).Settled := fun hls h => Eval.settled_body b hls h
  have hopened : same.Alike (Eval.stmt g invoke (.block b span))
      (Eval.stmts g' invoke' b.flatten.stmts) := by
    obtain ⟨ss₁, span₁⟩ := b
    exact hb.record_left (.executing span)
  rw [Eval.stmts_append]
  refine (hopened.bind fun _ => hss).congr (fun hls => ?_) (fun _ => rfl)
  rw [Eval.stmts_cons]
  exact hblock.bind _ hls

/-- What opening blocks keeps, by induction over statements and bodies. -/
theorem flatten_cases (hg : Twins twin g g') (hi : same.Invokes twin invoke invoke') :
    Stmt.Cases
      (fun s => ∀ {ss ss' : List Stmt},
        same.Alike (Eval.stmts g invoke ss) (Eval.stmts g' invoke' ss') →
          same.Alike (Eval.stmts g invoke (s :: ss)) (Eval.stmts g' invoke' (s.flatten ++ ss')))
      (fun b => same.Alike (Eval.body g invoke b) (Eval.body g' invoke' b.flatten)) where
  line e span := by
    intro ss ss' hss
    rw [Stmt.flatten]
    exact alike_stmts_cons (alike_line hg hi e span) hss
  block b span hb := by
    intro ss ss' hss
    rw [Stmt.flatten]
    exact alike_opened span hb hss
  cond brs o span hbrs ho := by
    intro ss ss' hss
    rw [Stmt.flatten, Branch.flattenAll_eq_map, Body.flattenOption_eq_map]
    exact alike_stmts_cons (alike_cond hg hi span span hbrs ho) hss
  body ss span hss := by
    rw [Body.flatten, Eval.body_mk, Eval.body_mk]
    induction ss with
    | nil => exact alike_last
    | cons s ss ih =>
      rw [Stmt.flattenAll]
      exact hss s (List.mem_cons_self ..) (ih fun s' hs' => hss s' (List.mem_cons_of_mem s hs'))

end

/-- Opening blocks keeps what bodies do. -/
theorem faithful_flatten : Faithful Body.flatten :=
  fun hg hi b => (flatten_cases hg hi).body' b

/-- No block is left. -/
theorem blockFree_cases :
    Stmt.Cases (fun s => ∀ s' ∈ s.flatten, ∀ b span, .stmt (.block b span) ∉ s'.items)
      (fun b => ∀ b' span, .stmt (.block b' span) ∉ b.flatten.items) where
  line e span := by
    intro s' hs' b' span' hmem
    rw [Stmt.flatten, List.mem_singleton] at hs'
    rw [hs', Stmt.mem_items_line] at hmem
    cases hmem
  block b span hb := by
    intro s' hs' b' span' hmem
    rw [Stmt.flatten] at hs'
    refine hb b' span' ?_
    obtain ⟨ss, span⟩ := b
    exact Body.stmt_mem_items_mk.mpr ⟨s', hs', hmem⟩
  cond brs o span hbrs ho := by
    intro s' hs' b' span' hmem
    rw [Stmt.flatten, List.mem_singleton] at hs'
    rw [hs', Branch.flattenAll_eq_map, Body.flattenOption_eq_map, Stmt.mem_items_cond] at hmem
    rcases hmem with h | ⟨br', hbr', hmem⟩ | ⟨b, hb, hmem⟩
    · cases h
    · obtain ⟨br, hbr, rfl⟩ := List.mem_map.mp hbr'
      rw [Branch.body_map] at hmem
      exact hbrs br hbr b' span' hmem
    · obtain ⟨b₁, hb₁, rfl⟩ := Option.map_eq_some_iff.mp hb
      exact ho b₁ hb₁ b' span' hmem
  body ss span hss := by
    intro b' span' hmem
    rw [Body.flatten, Body.stmt_mem_items_mk, Stmt.flattenAll_eq_flatMap] at hmem
    obtain ⟨s', hs', hmem⟩ := hmem
    obtain ⟨s, hs, hs'⟩ := List.mem_flatMap.mp hs'
    exact hss s hs s' hs' b' span' hmem

/-- **Blocks can be opened.**  A program in which every block is replaced by its statements, at every
depth, holds no block and comes to the same on every console: it ends if and only if the program
does, with the same value or failure, output and unread input. -/
theorem Program.runs_flatten_iff (p : Program) :
    (∀ b span, .stmt (.block b span) ∉ p.flatten.items) ∧
    ∀ (c : Console) (r : Except Stop Value) (c' : Console),
      p.flatten.Runs c r c' ↔ p.Runs c r c' := by
  refine ⟨fun b span hmem => ?_, faithful_flatten.runs_iff p⟩
  obtain ⟨f, -, hmem⟩ := Program.stmt_mem_items_mapBodies hmem
  exact blockFree_cases.body' f.body b span hmem

/-! ### Nesting chains -/

mutual

/-- A statement with all chains in it nested: a condition that does not hold leads to an `else` body
with the rest of the chain.  Where the chain has no `else`, the last one yields what was produced
last. -/
def Stmt.nest : Stmt → Stmt
  | .line e span => .line e span
  | .block b span => .block b.nest span
  | .cond [] o span => .cond [] (Body.nestOption o) span
  | .cond (.mk test b :: brs) o span =>
    .cond [.mk test b.nest] (some (Branch.nestAll span (Body.nestElse span o) brs)) span

/-- The body with the rest of a chain. -/
def Branch.nestAll (span : Span) (otherwise : Body) : List Branch → Body
  | [] => otherwise
  | .mk test b :: brs =>
    .mk [.cond [.mk test b.nest] (some (Branch.nestAll span otherwise brs)) span] span

/-- A body with all chains in it nested. -/
def Body.nest : Body → Body
  | .mk ss span => .mk (Stmt.nestAll ss) span

/-- The `else` body of a condition without branches. -/
def Body.nestOption : Option Body → Option Body
  | none => none
  | some b => some b.nest

/-- The `else` body at the end of a chain. -/
def Body.nestElse (span : Span) : Option Body → Body
  | none => .mk [.line (.name ⟨Locals.lastName, span⟩ span) span] span
  | some b => b.nest

/-- Statements with all chains in them nested. -/
def Stmt.nestAll : List Stmt → List Stmt
  | [] => []
  | s :: ss => s.nest :: Stmt.nestAll ss

end

/-- **A program with all chains nested**, at every depth. -/
def Program.nest (p : Program) : Program :=
  p.mapBodies Body.nest

theorem Body.nestOption_eq_map (o : Option Body) : Body.nestOption o = o.map Body.nest := by
  cases o <;> rfl

theorem Stmt.nestAll_eq_map (ss : List Stmt) : Stmt.nestAll ss = ss.map Stmt.nest := by
  induction ss with
  | nil => rfl
  | cons s ss ih => rw [Stmt.nestAll, ih, List.map_cons]

/-- A body of one statement whose value is recorded does what the statement does. -/
theorem Eval.stmts_singleton {g : Globals} {invoke : Invoke} {s : Stmt}
    (hs : (Eval.stmt g invoke s).Settled) {ls : Locals} {m : Machine} (hls : ls.Live) :
    Eval.stmts g invoke [s] ls m = Eval.stmt g invoke s ls m := by
  rw [Eval.stmts_cons, hs.bind (fun _ => Eval.stmts g invoke []) hls]
  cases hrun : Eval.stmt g invoke s ls m with
  | done v ls' m' =>
    rw [Exec.bind_of_done hrun, Eval.stmts_nil, Locals.last, hs hls hrun]
    rfl
  | stopped why m' => rw [Exec.bind_of_stopped hrun]

theorem Eval.settled_cond {g : Globals} {invoke : Invoke} (brs : List Branch) (o : Option Body)
    (span : Span) : (Eval.stmt g invoke (.cond brs o span)).Settled :=
  fun hls h => Eval.settled_branches brs o hls h

/-- The name of the last produced value yields it. -/
theorem Eval.expr_last (g : Globals) (invoke : Invoke) (span span' : Span) {ls : Locals}
    {m : Machine} (hls : ls.Live) :
    Eval.expr g invoke (.name ⟨Locals.lastName, span⟩ span') ls m = .done ls.last ls m := by
  refine Eval.name_eq_done_iff.mpr ⟨?_, rfl, rfl⟩
  unfold Scope.value Scope.get?
  rw [hls.get?_last]

section
variable {twin : FunDef → FunDef} {g g' : Globals} {invoke invoke' : Invoke}

open Pairing

theorem alike_nestElse (span : Span) {o : Option Body}
    (ho : ∀ b ∈ o, same.Alike (Eval.body g invoke b) (Eval.body g' invoke' b.nest)) :
    same.Alike (Eval.orElse g invoke o) (Eval.body g' invoke' (Body.nestElse span o)) := by
  cases o with
  | some b => exact ho b rfl
  | none =>
    refine alike_of_steps fun {ls m m'} hls hm => ?_
    have hline : Eval.stmt g' invoke' (.line (.name ⟨Locals.lastName, span⟩ span) span) ls m' =
        .done ls.last ls (m'.record (.executing span)) :=
      Eval.expr_last g' invoke' span span hls
    rw [Body.nestElse, Eval.body_mk, Eval.stmts_cons_of_done hline,
      Locals.setLast_of_get? hls.get?_last]
    exact .done hls hm

/-- A branch with further ones after it goes like one with an `else` body that goes like those. -/
theorem alike_else (hg : Twins twin g g') (hi : same.Invokes twin invoke invoke') (e : Expr)
    {b b' otherwise : Body} {brs : List Branch} {o : Exec Value}
    (hb : same.Alike (Eval.body g invoke b) (Eval.body g' invoke' b'))
    (hbrs : same.Alike (Eval.branches g invoke brs o) (Eval.body g' invoke' otherwise)) :
    same.Alike (Eval.branches g invoke (.mk e b :: brs) o)
      (Eval.branches g' invoke' [.mk e b'] (Eval.orElse g' invoke' (some otherwise))) :=
  alike_branches_cons hg hi e hb hbrs

/-- The rest of a chain goes like the body that it is nested in. -/
theorem alike_nestAll (hg : Twins twin g g') (hi : same.Invokes twin invoke invoke') (span : Span)
    {brs : List Branch} {o : Exec Value} {otherwise : Body}
    (hbrs : ∀ br ∈ brs,
      same.Alike (Eval.body g invoke br.body) (Eval.body g' invoke' br.body.nest))
    (ho : same.Alike o (Eval.body g' invoke' otherwise)) :
    same.Alike (Eval.branches g invoke brs o)
      (Eval.body g' invoke' (Branch.nestAll span otherwise brs)) := by
  induction brs with
  | nil => exact ho
  | cons br brs ih =>
    obtain ⟨e, b⟩ := br
    have hrest := ih fun br' hbr' => hbrs br' (List.mem_cons_of_mem _ hbr')
    have hcond := alike_else hg hi e (hbrs _ (List.mem_cons_self ..)) hrest
    rw [Branch.nestAll, Eval.body_mk]
    refine (hcond.record_right (.executing span)).congr (fun _ => rfl) fun hls => ?_
    exact Eval.stmts_singleton (Eval.settled_cond _ _ span) hls

/-- What nesting chains keeps, by induction over statements and bodies. -/
theorem nest_cases (hg : Twins twin g g') (hi : same.Invokes twin invoke invoke') :
    Stmt.Cases (fun s => same.Alike (Eval.stmt g invoke s) (Eval.stmt g' invoke' s.nest))
      (fun b => same.Alike (Eval.body g invoke b) (Eval.body g' invoke' b.nest)) where
  line e span := alike_line hg hi e span
  block b span hb := alike_block span span hb
  cond brs o span hbrs ho := by
    cases brs with
    | nil =>
      have hnone := alike_cond hg hi (φ := Body.nest) span span hbrs ho
      rw [Stmt.nest, Body.nestOption_eq_map]
      exact hnone
    | cons br brs =>
      obtain ⟨e, b⟩ := br
      have hrest := alike_nestAll hg hi span
        (fun br' hbr' => hbrs br' (List.mem_cons_of_mem _ hbr')) (alike_nestElse span ho)
      refine (alike_record _ _).bind fun _ => ?_
      exact alike_else hg hi e (hbrs _ (List.mem_cons_self ..)) hrest
  body ss span hss := by
    rw [Body.nest, Eval.body_mk, Eval.body_mk, Stmt.nestAll_eq_map]
    exact alike_stmts hss

end

/-- Nesting chains keeps what bodies do. -/
theorem faithful_nest : Faithful Body.nest :=
  fun hg hi b => (nest_cases hg hi).body' b

/-- A condition with one branch and an `else`, or without branches. -/
def TwoWay (brs : List Branch) (o : Option Body) : Prop :=
  brs = [] ∨ ∃ br b, brs = [br] ∧ o = some b

/-- The body with the rest of a chain holds two-way conditions only. -/
theorem twoWay_nestAll (span : Span) {brs : List Branch} {otherwise : Body}
    (hbrs : ∀ br ∈ brs, ∀ brs' o' span',
      .stmt (.cond brs' o' span') ∈ br.body.nest.items → TwoWay brs' o')
    (ho : ∀ brs' o' span', .stmt (.cond brs' o' span') ∈ otherwise.items → TwoWay brs' o') :
    ∀ brs' o' span', .stmt (.cond brs' o' span') ∈ (Branch.nestAll span otherwise brs).items →
      TwoWay brs' o' := by
  induction brs with
  | nil => exact ho
  | cons br brs ih =>
    intro brs' o' span' hmem
    obtain ⟨e, b⟩ := br
    rw [Branch.nestAll, Body.stmt_mem_items_mk] at hmem
    obtain ⟨s, hs, hmem⟩ := hmem
    rw [List.mem_singleton.mp hs, Stmt.mem_items_cond] at hmem
    rcases hmem with h | ⟨br', hbr', hmem⟩ | ⟨b', hb', hmem⟩
    · cases h
      exact Or.inr ⟨_, _, rfl, rfl⟩
    · rw [List.mem_singleton.mp hbr'] at hmem
      exact hbrs _ (List.mem_cons_self ..) brs' o' span' hmem
    · cases hb'
      exact ih (fun br hbr => hbrs br (List.mem_cons_of_mem _ hbr)) brs' o' span' hmem

/-- Only two-way conditions are left. -/
theorem twoWay_cases :
    Stmt.Cases (fun s => ∀ brs o span, .stmt (.cond brs o span) ∈ s.nest.items → TwoWay brs o)
      (fun b => ∀ brs o span, .stmt (.cond brs o span) ∈ b.nest.items → TwoWay brs o) where
  line e span := by
    intro brs o span' hmem
    rw [Stmt.nest, Stmt.mem_items_line] at hmem
    cases hmem
  block b span hb := by
    intro brs o span' hmem
    rw [Stmt.nest, Stmt.mem_items_block] at hmem
    rcases hmem with h | hmem
    · cases h
    · exact hb brs o span' hmem
  cond brs o span hbrs ho := by
    have helse : ∀ brs' o' span', .stmt (.cond brs' o' span') ∈ (Body.nestElse span o).items →
        TwoWay brs' o' := by
      intro brs' o' span' hmem
      cases o with
      | none =>
        rw [Body.nestElse, Body.stmt_mem_items_mk] at hmem
        obtain ⟨s, hs, hmem⟩ := hmem
        rw [List.mem_singleton.mp hs, Stmt.mem_items_line] at hmem
        cases hmem
      | some b => exact ho b rfl brs' o' span' hmem
    intro brs' o' span' hmem
    cases brs with
    | nil =>
      rw [Stmt.nest, Stmt.mem_items_cond] at hmem
      rcases hmem with h | ⟨br, hbr, -⟩ | ⟨b, hb, hmem⟩
      · cases h
        exact Or.inl rfl
      · cases hbr
      · rw [Body.nestOption_eq_map] at hb
        obtain ⟨b₁, hb₁, rfl⟩ := Option.map_eq_some_iff.mp hb
        exact ho b₁ hb₁ brs' o' span' hmem
    | cons br brs =>
      -- The whole chain is the only statement of a body that holds the rest of a longer chain.
      refine twoWay_nestAll span hbrs helse brs' o' span' ?_
      obtain ⟨e, b⟩ := br
      exact Body.stmt_mem_items_mk.mpr ⟨_, List.mem_singleton_self _, hmem⟩
  body ss span hss := by
    intro brs o span' hmem
    rw [Body.nest, Body.stmt_mem_items_mk, Stmt.nestAll_eq_map] at hmem
    obtain ⟨s', hs', hmem⟩ := hmem
    obtain ⟨s, hs, rfl⟩ := List.mem_map.mp hs'
    exact hss s hs brs o span' hmem

/-- **Chains can be nested.**  A program in which every chain of conditions is replaced by nested
conditions with an `else` each, at every depth, comes to the same on every console. -/
theorem Program.runs_nest_iff (p : Program) :
    (∀ brs o span, .stmt (.cond brs o span) ∈ p.nest.items → TwoWay brs o) ∧
    ∀ (c : Console) (r : Except Stop Value) (c' : Console),
      p.nest.Runs c r c' ↔ p.Runs c r c' := by
  refine ⟨fun brs o span hmem => ?_, faithful_nest.runs_iff p⟩
  obtain ⟨f, -, hmem⟩ := Program.stmt_mem_items_mapBodies hmem
  exact twoWay_cases.body' f.body brs o span hmem

end Offside
