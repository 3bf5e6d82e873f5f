import Offside.Proofs.Layout
import Offside.Proofs.Run.Depth
import Offside.Proofs.Run.Origin

/-!
# Spans have no influence

Spans go into failures and into the log, and nothing else looks at them.  So running a program whose
spans are forgotten does the same as running the program and forgetting the spans afterwards.  This
is shown for each piece of code: `Exec.Bares` relates code with code without spans, and there is one
law for each form of code.

* what is left of the end of a run: `Stop.bare`, `Machine.bare`, `Answer.bare`;
* expressions, bodies and functions: `Eval.bares_expr`, `Eval.bares_body`, `bares_invoke`;
* **forgetting spans before and after a run is the same**: `Program.interpret_bare`;
* **programs that differ in spans only come to the same but for spans**: `Program.runs_of_bare_eq`.
-/

namespace Offside

variable {α β γ δ : Type}

/-! ### The end of a run without spans -/

/-- The failure alone; whether it has a span stays. -/
def Located.bare (f : Located α) : Located α :=
  { f with span := f.span.map fun _ => .initial }

/-- The reason to stop alone. -/
def Stop.bare : Stop → Stop
  | .failed failure => .failed failure.bare
  | why => why

/-- The event alone. -/
def Event.bare : Event → Event
  | .executing _ => .executing .initial
  | e => e

/-- The machine with the events of its log alone. -/
def Machine.bare (m : Machine) : Machine :=
  { m with log := m.log.map (·.map Event.bare) }

/-- What a piece of code gives alone, where `f` is what is left of its value. -/
def Step.bare (f : α → β) : Step α → Step β
  | .done a ls m => .done (f a) ls m.bare
  | .stopped why m => .stopped why.bare m.bare

/-- What a call gives alone. -/
def Answer.bare (a : Answer) : Answer :=
  (a.1.mapError Stop.bare, a.2.bare)

/-- The globals alone. -/
def Globals.bare (g : Globals) : Globals :=
  ⟨g.funs.map FunDef.bare⟩

@[simp] theorem Machine.bare_console (m : Machine) : m.bare.console = m.console := rfl

theorem Machine.bare_record (m : Machine) (e : Event) : (m.record e).bare = m.bare.record e.bare := by
  unfold bare record
  cases m.log <;> simp

theorem Located.bare_orSpan (f : Located α) (site : Span) :
    (f.orSpan site).bare = f.bare.orSpan .initial := by
  obtain ⟨cause, span⟩ := f
  cases span <;> rfl

theorem Exec.bare_blamed (site : Span) (why : Stop) :
    (blamed site why).bare = blamed .initial why.bare := by
  cases why with
  | failed failure => exact congrArg Stop.failed (failure.bare_orSpan site)
  | invalidInteger text => rfl
  | tooDeep => rfl

/-! ### Code without spans -/

/-- Code and code without spans: the second does what the first does, spans forgotten. -/
def Exec.Bares (f : α → β) (x : Exec α) (y : Exec β) : Prop :=
  ∀ ls m, y ls m.bare = (x ls m).bare f

namespace Exec

variable {f : α → β} {h : γ → δ}

theorem Bares.bind {x : Exec α} {y : Exec β} {k : α → Exec γ} {k' : β → Exec δ} (hx : Bares f x y)
    (hk : ∀ a, Bares h (k a) (k' (f a))) : Bares h (x >>= k) (y >>= k') := by
  intro ls m
  have hxm := hx ls m
  cases hrun : x ls m with
  | done a ls₁ m₁ =>
    rw [hrun] at hxm
    rw [bind_of_done hrun, bind_of_done hxm]
    exact hk a ls₁ m₁
  | stopped why m₁ =>
    rw [hrun] at hxm
    rw [bind_of_stopped hrun, bind_of_stopped hxm]
    rfl

theorem bares_pure (a : α) : Bares f (pure a) (pure (f a)) :=
  fun _ _ => rfl

theorem bares_stop (why : Stop) : Bares f (stop why) (stop why.bare) :=
  fun _ _ => rfl

theorem bares_ofExcept (r : Except Failure α) :
    Bares f (ofExcept r) (ofExcept ((r.mapError Located.bare).map f)) := by
  cases r with
  | ok a => exact bares_pure a
  | error failure => exact bares_stop (.failed failure)

theorem bares_locals : Bares id locals locals :=
  fun _ _ => rfl

theorem bares_setLocals (ls : Locals) : Bares id (setLocals ls) (setLocals ls) :=
  fun _ _ => rfl

theorem bares_last : Bares id last last :=
  fun _ _ => rfl

theorem bares_setLast (v : Value) : Bares id (setLast v) (setLast v) :=
  fun _ _ => rfl

theorem bares_record (e : Event) : Bares id (record e) (record e.bare) := by
  intro ls m
  exact congrArg (Step.done () ls) (m.bare_record e).symm

theorem bares_callAt {c c' : Machine → Answer} (h : ∀ m, c' m.bare = (c m).bare) (site : Span) :
    Bares id (callAt site c) (callAt .initial c') := by
  intro ls m
  have hm := h m
  rcases hc : c m with ⟨why | v, m₁⟩
  · rw [hc] at hm
    rw [callAt_of_error hc, callAt_of_error hm]
    exact congrArg (Step.stopped · m₁.bare) (bare_blamed site why).symm
  · rw [hc] at hm
    rw [callAt_of_ok hc, callAt_of_ok hm]
    rfl

theorem Bares.answer {x y : Exec Value} (h : Bares id x y) (ls : Locals) (m : Machine) :
    y.answer ls m.bare = (x.answer ls m).bare := by
  unfold Exec.answer
  rw [h ls m]
  cases x ls m with
  | done v ls₁ m₁ => rfl
  | stopped why m₁ => rfl

end Exec

/-! ### Names -/

theorem Ident.names_bare (xs : List Ident) : (xs.map Ident.bare).map (·.name) = xs.map (·.name) := by
  rw [List.map_map]
  rfl

theorem Globals.find?_bare (g : Globals) (x : String) :
    g.bare.find? x = (g.find? x).map FunDef.bare := by
  unfold Globals.find? Globals.bare
  rw [List.find?_map]
  rfl

/-- Functions without spans stand for those with spans. -/
theorem Twins.bare (g : Globals) : Twins FunDef.bare g g.bare where
  get? x := by
    unfold Globals.get?
    rw [Globals.find?_bare]
    cases Builtin.named? x with
    | some b => rfl
    | none =>
      cases predefined? x with
      | some v => rfl
      | none => cases g.find? x <;> rfl
  name f := rfl
  params f := Ident.names_bare f.params

namespace Scope

variable (g : Globals) (ls : Locals)

theorem value_bare (x : Ident) :
    value ⟨g.bare, ls⟩ x.bare = (value ⟨g, ls⟩ x).mapError Located.bare := by
  rw [(Twins.bare g).value]
  unfold value Ident.bare
  rcases get? ⟨g, ls⟩ x.name with _ | v | f <;> rfl

theorem callee_bare (x : Ident) (site : Span) :
    callee ⟨g.bare, ls⟩ x.bare .initial =
      ((callee ⟨g, ls⟩ x site).mapError Located.bare).map (Function.map FunDef.bare) := by
  rw [(Twins.bare g).callee]
  unfold callee Ident.bare
  rcases get? ⟨g, ls⟩ x.name with _ | v | f <;> rfl

theorem assign_bare (x : Ident) (v : Value) :
    assign ⟨g.bare, ls⟩ x.bare v = (assign ⟨g, ls⟩ x v).mapError Located.bare := by
  rw [(Twins.bare g).assign]
  unfold assign Ident.bare
  split <;> rfl

end Scope

/-! ### Expressions -/

/-- Ways to run functions of which the second does without spans what the first does. -/
def Invoke.Bares (invoke invoke' : Invoke) : Prop :=
  ∀ f args m, invoke' f.bare args m.bare = (invoke f args m).bare

theorem Function.apply_bare {invoke invoke' : Invoke} (hi : Invoke.Bares invoke invoke')
    (f : Function) (args : List Value) (m : Machine) :
    (f.map FunDef.bare).apply invoke' args m.bare = (f.apply invoke args m).bare := by
  cases f with
  | builtin b =>
    unfold Function.map Function.apply
    simp only [Machine.record_console, Machine.bare_console]
    rcases b.call args m.console with ⟨cause | v, c⟩
    · exact congrArg (fun m₁ => ((.error (.failed ⟨cause, none⟩), { m₁ with console := c }) : Answer))
        (m.bare_record (.calling b.name args)).symm
    · exact congrArg (fun m₁ => ((.ok v, { m₁ with console := c }) : Answer))
        (m.bare_record (.calling b.name args)).symm
  | user f =>
    have harity' : f.bare.arity = f.arity := (Twins.bare {}).arity f
    have hrecord : m.bare.record (.calling f.bare.name.name args) =
        (m.record (.calling f.name.name args)).bare :=
      (m.bare_record (.calling f.name.name args)).symm
    by_cases harity : f.arity = args.length
    · rw [Function.map, Function.apply_of_arity_eq harity,
        Function.apply_of_arity_eq (harity'.trans harity)]
      exact (congrArg (invoke' f.bare args) hrecord).trans (hi f args _)
    · rw [Function.map, Function.apply_of_arity_ne harity,
        Function.apply_of_arity_ne (fun h => harity (harity'.symm.trans h)), harity']
      exact congrArg (Prod.mk _) hrecord

namespace Eval

variable {g : Globals} {invoke invoke' : Invoke}

open Exec

theorem bares_callee (x : Ident) (site : Span) :
    Bares (Function.map FunDef.bare) (callee g x site) (callee g.bare x.bare .initial) := by
  refine bares_locals.bind fun ls => ?_
  rw [id, Scope.callee_bare g ls x site]
  exact bares_ofExcept _

theorem bares_name (x : Ident) : Bares id (name g x) (name g.bare x.bare) := by
  refine bares_locals.bind fun ls => ?_
  have h := bares_ofExcept (f := id) (Scope.value ⟨g, ls⟩ x)
  rwa [Except.map_id, id, ← Scope.value_bare] at h

theorem bares_assign (x : Ident) (v : Value) : Bares id (assign g x v) (assign g.bare x.bare v) := by
  refine bares_locals.bind fun ls => ?_
  have h := bares_ofExcept (f := id) (Scope.assign ⟨g, ls⟩ x v)
  rw [Except.map_id, id, ← Scope.assign_bare] at h
  exact h.bind bares_setLocals

theorem bares_string (lit : StrLit) (span : Span) :
    Bares id (string g lit span) (string g.bare lit .initial) := by
  refine bares_locals.bind fun ls => ?_
  rw [id, (Twins.bare g).eval]
  cases lit.eval ⟨g, ls⟩ with
  | ok text => exact bares_pure _
  | error cause => exact bares_stop _

theorem bares_number (κ : NumberKind) (text : String) (span : Span) :
    Bares id (number κ text span) (number κ text .initial) := by
  cases κ with
  | dec =>
    unfold number
    cases Decimal.literal? text with
    | some i => exact bares_pure _
    | none => exact bares_stop _
  | hex | oct | bin | float | imag => exact bares_stop _

theorem bares_exprs {es : List Expr}
    (h : ∀ e ∈ es, Bares id (expr g invoke e) (expr g.bare invoke' e.bare)) :
    Bares id (exprs g invoke es) (exprs g.bare invoke' (Expr.bares es)) := by
  induction es with
  | nil => exact bares_pure []
  | cons e es ih =>
    rw [Expr.bares, exprs_cons, exprs_cons]
    refine (h e (List.mem_cons_self ..)).bind fun v => ?_
    exact (ih fun e' he' => h e' (List.mem_cons_of_mem e he')).bind fun vs => bares_pure (v :: vs)

/-- **Expressions without spans.** -/
theorem bares_expr (hi : Invoke.Bares invoke invoke') (e : Expr) :
    Bares id (expr g invoke e) (expr g.bare invoke' e.bare) := by
  induction e using Expr.induction with
  | call x es span ih =>
    rw [Expr.bare, expr_call, expr_call]
    refine (bares_callee x span).bind fun f => ?_
    refine (bares_exprs ih).bind fun vs => ?_
    exact bares_callAt (Function.apply_bare hi f vs) span
  | assign x e span ih =>
    rw [Expr.bare, expr_assign, expr_assign]
    exact ih.bind fun v => (bares_assign x v).bind fun _ => bares_pure v
  | name x span => exact bares_name x
  | string lit span => exact bares_string lit span
  | number κ text span => exact bares_number κ text span

/-! ### Statements -/

theorem bares_orElse {o : Option Body}
    (h : ∀ b ∈ o, Bares id (body g invoke b) (body g.bare invoke' b.bare)) :
    Bares id (orElse g invoke o) (orElse g.bare invoke' (Body.bareOption o)) := by
  cases o with
  | none => exact bares_last
  | some b => exact h b rfl

theorem bares_branches (hi : Invoke.Bares invoke invoke') {brs : List Branch} {o o' : Exec Value}
    (h : ∀ br ∈ brs, Bares id (body g invoke br.body) (body g.bare invoke' br.body.bare))
    (ho : Bares id o o') :
    Bares id (branches g invoke brs o) (branches g.bare invoke' (Branch.bares brs) o') := by
  induction brs with
  | nil => exact ho
  | cons br brs ih =>
    obtain ⟨e, b⟩ := br
    rw [Branch.bares, branches_cons, branches_cons]
    refine (bares_expr hi e).bind fun v => ?_
    rw [id]
    cases v.truth with
    | true => exact h _ (List.mem_cons_self ..)
    | false => exact ih fun br' hbr' => h br' (List.mem_cons_of_mem _ hbr')

theorem bares_stmts {ss : List Stmt}
    (h : ∀ s ∈ ss, Bares id (stmt g invoke s) (stmt g.bare invoke' s.bare)) :
    Bares id (stmts g invoke ss) (stmts g.bare invoke' (Stmt.bares ss)) := by
  induction ss with
  | nil => exact bares_last
  | cons s ss ih =>
    rw [Stmt.bares, stmts_cons, stmts_cons]
    refine (h s (List.mem_cons_self ..)).bind fun v => (bares_setLast v).bind fun _ => ?_
    exact ih fun s' hs' => h s' (List.mem_cons_of_mem s hs')

theorem bares_cases (hi : Invoke.Bares invoke invoke') :
    Stmt.Cases (fun s => Bares id (stmt g invoke s) (stmt g.bare invoke' s.bare))
      (fun b => Bares id (body g invoke b) (body g.bare invoke' b.bare)) where
  line e span := (bares_record (.executing span)).bind fun _ => bares_expr hi e
  block _ span hb := (bares_record (.executing span)).bind fun _ => hb
  cond _ _ span hbrs ho :=
    (bares_record (.executing span)).bind fun _ => bares_branches hi hbrs (bares_orElse ho)
  body _ _ hss := bares_stmts hss

/-- **Bodies without spans.** -/
theorem bares_body (hi : Invoke.Bares invoke invoke') (b : Body) :
    Bares id (body g invoke b) (body g.bare invoke' b.bare) :=
  (bares_cases hi).body' b

end Eval

/-! ### Functions and programs -/

/-- **Functions without spans**, at every depth of calls. -/
theorem bares_invoke (g : Globals) (d : Nat) : Invoke.Bares (invoke g d) (invoke g.bare d) := by
  induction d with
  | zero =>
    intro f args m
    rfl
  | succ d ih =>
    intro f args m
    change (Eval.body g.bare (invoke g.bare d) f.body.bare).answer
      (.fresh f.bare.params args) m.bare = _
    rw [(Twins.bare g).fresh]
    exact (Eval.bares_body ih f.body).answer _ m

theorem Globals.callMain_bare (g : Globals) (d : Nat) (m : Machine) :
    g.bare.callMain d m.bare = (g.callMain d m).bare := by
  unfold Globals.callMain
  rw [(Twins.bare g).get?]
  rcases g.get? "main" with _ | v | f
  · rfl
  · rfl
  · exact Function.apply_bare (bares_invoke g d) f [] m

theorem Answer.flush_bare (a : Answer) : a.bare.flush = a.flush.bare := by
  obtain ⟨(failure | text | _) | v, m⟩ := a <;>
    simp only [Answer.bare, Except.mapError, Stop.bare, Answer.flush, Machine.bare_console] <;>
    cases m.console.flush <;> rfl

/-- The name of a definition that is taken does not depend on spans. -/
theorem Globals.offence?_bare (g : Globals) (f : FunDef) :
    g.bare.offence? f.bare = (g.offence? f).map Ident.bare := by
  unfold Globals.offence?
  rw [Globals.find?_bare, Option.isSome_map]
  change (if (isReserved f.name.name || (g.find? f.name.name).isSome) = true then some f.name.bare
    else (f.params.map Ident.bare).find? _) = _
  split
  · rfl
  · rw [List.find?_map]
    rfl

theorem Globals.extend_bare (g : Globals) (fs : List FunDef) :
    g.bare.extend (fs.map FunDef.bare) =
      ((g.extend fs).1.bare, (g.extend fs).2.map Located.bare) := by
  induction fs generalizing g with
  | nil => rfl
  | cons f fs ih =>
    rw [List.map_cons, Globals.extend, Globals.extend, Globals.offence?_bare]
    cases g.offence? f with
    | some x => rfl
    | none =>
      have h := ih ⟨g.funs ++ [f]⟩
      rwa [Globals.bare, List.map_append] at h

theorem Machine.bare_defining (fs : List FunDef) (m : Machine) :
    (fs.map FunDef.bare).foldl (fun m f => m.record (.defining f.name.name f.arity)) m.bare =
      (fs.foldl (fun m f => m.record (.defining f.name.name f.arity)) m).bare := by
  induction fs generalizing m with
  | nil => rfl
  | cons f fs ih =>
    have harity : f.bare.arity = f.arity := (Twins.bare {}).arity f
    have hrecord : m.bare.record (.defining f.bare.name.name f.bare.arity) =
        (m.record (.defining f.name.name f.arity)).bare := by
      rw [m.bare_record, harity]
      rfl
    rw [List.map_cons, List.foldl_cons, List.foldl_cons, hrecord, ih]

namespace Program

/-- **Forgetting spans before and after a run is the same.** -/
theorem interpret_bare (p : Program) (d : Nat) (m : Machine) :
    p.bare.interpret d m.bare = (p.interpret d m).bare := by
  have hextend : Globals.extend {} p.bare.funs =
      ((Globals.extend {} p.funs).1.bare, (Globals.extend {} p.funs).2.map Located.bare) :=
    Globals.extend_bare {} p.funs
  unfold interpret
  rw [hextend]
  obtain ⟨g, offence⟩ := Globals.extend {} p.funs
  have hdefining := Machine.bare_defining g.funs m
  cases offence with
  | some failure => exact congrArg (Prod.mk _) hdefining
  | none =>
    change (g.bare.callMain d ((g.funs.map FunDef.bare).foldl _ m.bare)).flush = _
    rw [hdefining, Globals.callMain_bare, Answer.flush_bare]

end Program

/-! ### Programs that differ in spans -/

/-- **Ends of runs that are the same but for spans:** the same value, or the same failure with a span
in both or in neither. -/
inductive SameButSpan : Except Stop Value → Except Stop Value → Prop
  | value (v : Value) : SameButSpan (.ok v) (.ok v)
  | failure {failure failure' : Failure} : failure.cause = failure'.cause →
      failure.span.isSome = failure'.span.isSome →
      SameButSpan (.error (.failed failure)) (.error (.failed failure'))
  | invalidInteger (text : String) :
      SameButSpan (.error (.invalidInteger text)) (.error (.invalidInteger text))

theorem Located.bare_eq_bare_iff {f f' : Located α} :
    f.bare = f'.bare ↔ f.cause = f'.cause ∧ f.span.isSome = f'.span.isSome := by
  obtain ⟨cause, span⟩ := f
  obtain ⟨cause', span'⟩ := f'
  cases span <;> cases span' <;> simp [Located.bare]

theorem SameButSpan.of_bare {r r' : Except Stop Value}
    (h : r.mapError Stop.bare = r'.mapError Stop.bare) (hr : r ≠ .error .tooDeep) :
    SameButSpan r r' := by
  rcases r with (failure | text | _) | v <;> rcases r' with (failure' | text' | _) | v' <;>
    simp only [Except.mapError, Stop.bare, Except.error.injEq, Except.ok.injEq, Stop.failed.injEq,
      Stop.invalidInteger.injEq, reduceCtorEq] at h
  · obtain ⟨hcause, hspan⟩ := Located.bare_eq_bare_iff.mp h
    exact .failure hcause hspan
  · cases h
    exact .invalidInteger text
  · exact absurd rfl hr
  · cases h
    exact .value v

namespace Program

variable {p q : Program}

/-- What comes of a program also comes, but for spans, of one that differs in spans only. -/
theorem Runs.exists_of_bare_eq {c c' : Console} {r : Except Stop Value} (hruns : p.Runs c r c')
    (h : p.bare = q.bare) : ∃ r', q.Runs c r' c' ∧ SameButSpan r r' := by
  obtain ⟨hr, d, hd⟩ := hruns
  obtain ⟨hresult, hconsole⟩ := Prod.mk.inj hd
  have hbare : (p.interpret d { console := c }).bare = (q.interpret d { console := c }).bare := by
    rw [← interpret_bare, ← interpret_bare, h]
  obtain ⟨hbare₁, hbare₂⟩ := Prod.mk.inj hbare
  rw [hresult] at hbare₁
  have hsame := SameButSpan.of_bare hbare₁ hr
  refine ⟨(q.interpret d { console := c }).1, ⟨?_, d, Prod.ext rfl ?_⟩, hsame⟩
  · intro hdeep
    rw [hdeep] at hsame
    cases hsame
  · rw [← hconsole]
    exact (congrArg Machine.console hbare₂).symm

/-- A run that fails under some bound. -/
theorem runs_failed {d : Nat} {failure : Failure} {c c' : Console}
    (hf : (p.interpret d { console := c }).failure? = some failure)
    (hc : (p.interpret d { console := c }).2.console = c') :
    p.Runs c (.error (.failed failure)) c' := by
  obtain ⟨m, hm⟩ := Answer.failure?_eq_some_iff.mp hf
  refine ⟨by simp, d, Prod.ext ?_ hc⟩
  unfold Answer.outcome
  rw [hm]

/-- **Spans have no influence.**  Of two programs that differ in spans only, both come to an end on a
console or neither does, and then with the same value, or with the same failure and a span in both
or in neither; the output and the unread input are the same. -/
theorem runs_of_bare_eq (h : p.bare = q.bare) (c : Console) :
    ((∃ r c', p.Runs c r c') ↔ ∃ r c', q.Runs c r c') ∧
    ∀ r r' c₁ c₂, p.Runs c r c₁ → q.Runs c r' c₂ → SameButSpan r r' ∧ c₁ = c₂ := by
  refine ⟨⟨?_, ?_⟩, ?_⟩
  · rintro ⟨r, c', hruns⟩
    obtain ⟨r', hruns', -⟩ := hruns.exists_of_bare_eq h
    exact ⟨r', c', hruns'⟩
  · rintro ⟨r, c', hruns⟩
    obtain ⟨r', hruns', -⟩ := hruns.exists_of_bare_eq h.symm
    exact ⟨r', c', hruns'⟩
  · intro r r' c₁ c₂ hp hq
    obtain ⟨r'', hq', hsame⟩ := hp.exists_of_bare_eq h
    obtain ⟨rfl, rfl⟩ := hq.unique hq'
    exact ⟨hsame, rfl⟩

/-- `Sample.undefinedCall` with the spans of its source: both fail with a span of their own. -/
theorem runs_of_bare_eq_undefinedCall :
    ∃ r, Sample.undefinedCall.Runs {} r {} ∧
      SameButSpan (.error (.failed ⟨.undefinedFunction "undefinedfun", some ⟨15, 31⟩⟩)) r := by
  obtain ⟨p, hbare, hruns⟩ : ∃ p : Program, p.bare = Sample.undefinedCall.bare ∧
      p.Runs {} (.error (.failed ⟨.undefinedFunction "undefinedfun", some ⟨15, 31⟩⟩)) {} := by
    refine ⟨⟨[⟨⟨"main", ⟨4, 8⟩⟩, [], .mk [.line (.call ⟨"undefinedfun", ⟨15, 27⟩⟩
      [.number .dec "42" ⟨28, 30⟩] ⟨15, 31⟩) ⟨15, 31⟩] ⟨11, 32⟩, ⟨0, 32⟩⟩], ⟨0, 32⟩⟩, rfl, ?_⟩
    exact runs_failed (d := 1) (by decide +kernel) (by decide +kernel)
  obtain ⟨hends, hsame⟩ := runs_of_bare_eq hbare {}
  obtain ⟨r, c', hruns'⟩ := hends.mp ⟨_, _, hruns⟩
  obtain ⟨hr, rfl⟩ := hsame _ _ _ _ hruns hruns'
  exact ⟨r, hruns', hr⟩

end Program

end Offside
