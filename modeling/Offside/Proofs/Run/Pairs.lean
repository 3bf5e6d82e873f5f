import Offside.Run
import Offside.Proofs.Run.Scopes

/-!
# Two runs side by side

Many properties compare two runs: of one program on two consoles, of a program and a rewritten form
of it, or of one program under two bounds on nested calls.  The two runs do the same as long as the
console and the functions that are called answer the same; from then on they go different ways.

A `Pairing` says which consoles go together and where two runs stand once they have parted, and it
has to say so for writing and reading only.  Everything else that code does follows.

* code that goes alike: `Pairing.Alike`, with one law for each form of code (`Alike.bind`,
  `Alike.callAt`, `alike_expr`, `alike_cond`, `alike_stmts`);
* functions whose bodies go alike go alike at every depth of calls: `Pairing.invokes_of_bodies`;
* **programs whose functions go alike have runs that go together or part**: `Pairing.interpret`.
-/

namespace Offside

variable {α β : Type}

/-! ### What is written and read -/

/-- What a predefined function may make of the console. -/
inductive Console.Next (c : Console) : Console → Prop
  | still : Next c c
  | write (text : String) : Next c (c.write text).2
  | read : Next c c.readLine.2

/-- **What predefined functions do with the console:** printing writes a line, reading reads one, and
nothing else depends on the console or changes it. -/
theorem Builtin.call_cases (b : Builtin) (args : List Value) :
    (∃ r, ∀ c, b.call args c = (r, c)) ∨
    (∀ c, b.call args c = ((c.write (printed args)).1.map fun _ => args.headD .empty,
      (c.write (printed args)).2)) ∨
    (∀ c, b.call args c = (c.readLine.1.map Value.str, c.readLine.2)) := by
  unfold Builtin.call
  split
  · exact Or.inr (Or.inl fun c => rfl)
  · exact Or.inl ⟨_, fun c => rfl⟩
  · exact Or.inr (Or.inr fun c => rfl)
  all_goals exact Or.inl ⟨_, fun c => rfl⟩

theorem Builtin.call_next (b : Builtin) (args : List Value) (c : Console) :
    c.Next (b.call args c).2 := by
  rcases b.call_cases args with ⟨r, h⟩ | h | h
  · rw [h]
    exact .still
  · rw [h]
    exact .write _
  · rw [h]
    exact .read

/-! ### Where a run stands -/

/-- Where a run stands: why it has stopped, if it has, and the console. -/
structure Standing where
  why? : Option Stop
  console : Console

namespace Standing

/-- Where a run stands after a step of the console. -/
def ofConsole : Except Cause α × Console → Standing
  | (.ok _, c) => ⟨none, c⟩
  | (.error cause, c) => ⟨some (.failed ⟨cause, none⟩), c⟩

@[simp] theorem console_ofConsole (r : Except Cause α × Console) :
    (ofConsole r).console = r.2 := by
  rcases r with ⟨cause | a, c⟩ <;> rfl

/-- A failure without a span gets that of the call. -/
def blamed (s : Standing) (site : Span) : Standing :=
  { s with why? := s.why?.map (Exec.blamed site) }

end Standing

/-- Where a piece of code leaves the run. -/
def Step.standing : Step α → Standing
  | .done _ _ m => ⟨none, m.console⟩
  | .stopped why m => ⟨some why, m.console⟩

/-- Where a call leaves the run. -/
def Answer.standing : Answer → Standing
  | (.ok _, m) => ⟨none, m.console⟩
  | (.error why, m) => ⟨some why, m.console⟩

@[simp] theorem Answer.console_standing (a : Answer) : a.standing.console = a.2.console := by
  rcases a with ⟨why | v, m⟩ <;> rfl

theorem Function.standing_apply_builtin (invoke : Invoke) (b : Builtin) (args : List Value)
    (m : Machine) :
    ((Function.builtin b).apply invoke args m).standing = .ofConsole (b.call args m.console) := by
  unfold Function.apply
  simp only [Machine.record_console]
  rcases b.call args m.console with ⟨cause | v, c⟩ <;> rfl

theorem Exec.standing_callAt (site : Span) (f : Machine → Answer) (ls : Locals) (m : Machine) :
    (callAt site f ls m).standing = (f m).standing.blamed site := by
  rcases hf : f m with ⟨why | v, m'⟩
  · rw [callAt_of_error hf]
    rfl
  · rw [callAt_of_ok hf]
    rfl

theorem Exec.standing_answer (x : Exec Value) (ls : Locals) (m : Machine) :
    (x.answer ls m).standing = (x ls m).standing := by
  unfold answer
  cases x ls m with
  | done v ls' m' => rfl
  | stopped why m' => rfl

/-! ### Pairings -/

/-- Two steps of the console that give the same and stay together, or part the runs. -/
def Agree (together : Console → Console → Prop) (apart : Standing → Standing → Prop)
    (r r' : Except Cause α × Console) : Prop :=
  (r'.1 = r.1 ∧ together r.2 r'.2) ∨ apart (.ofConsole r) (.ofConsole r')

/-- What is made of the results has no say. -/
theorem Agree.map {together : Console → Console → Prop} {apart : Standing → Standing → Prop}
    {r r' : Except Cause α × Console} (h : Agree together apart r r') (f : α → β) :
    Agree together apart (r.1.map f, r.2) (r'.1.map f, r'.2) := by
  rcases h with ⟨hr, hc⟩ | hs
  · refine Or.inl ⟨?_, hc⟩
    simp only [hr]
  · refine Or.inr ?_
    rcases r with ⟨cause | a, c⟩ <;> rcases r' with ⟨cause' | a', c'⟩ <;> exact hs

/-- **A way to compare two runs.**  As long as they do the same their consoles are `together`; once
the first has gone its own way, the two stand `apart`. -/
structure Pairing where
  together : Console → Console → Prop
  apart : Standing → Standing → Prop
  write : ∀ {c c' : Console} (text : String), together c c' →
    Agree together apart (c.write text) (c'.write text)
  read : ∀ {c c' : Console}, together c c' → Agree together apart c.readLine c'.readLine
  /-- The output of both is flushed with the same success. -/
  flush : ∀ {c c' : Console}, together c c' → c'.flush = c.flush
  /-- Runs that are apart stay so, whatever the first goes on to do. -/
  onward : ∀ {c c₁ : Console} {s : Standing} {why? : Option Stop}, apart ⟨none, c⟩ s → c.Next c₁ →
    apart ⟨why?, c₁⟩ s
  /-- Runs that are apart while the second goes on are apart whatever it does. -/
  onward' : ∀ {s s' : Standing} {c : Console}, apart s ⟨none, c⟩ → apart s s'
  blame : ∀ {s s' : Standing} (site : Span), apart s s' → apart (s.blamed site) s'
  blame' : ∀ {s s' : Standing} (site : Span), apart s s' → apart s (s'.blamed site)
  finish : ∀ {a a' : Answer}, apart a.standing a'.standing → apart a.flush.standing a'.flush.standing

namespace Locals

/-- The last produced value is among the variables, as it is in every call. -/
def Live (ls : Locals) : Prop :=
  ∃ v, ls.get? lastName = some v

theorem Live.insert {ls : Locals} (h : ls.Live) (x : String) (v : Value) : (ls.insert x v).Live := by
  unfold Live
  rw [get?_insert]
  split
  · exact ⟨v, rfl⟩
  · exact h

theorem live_setLast (ls : Locals) (v : Value) : (ls.setLast v).Live :=
  ⟨v, get?_insert_self ls lastName v⟩

theorem live_fresh (params : List Ident) (args : List Value) : (fresh params args).Live := by
  unfold Live
  rw [← Option.isSome_iff_exists, ← Option.ne_none_iff_isSome]
  intro hnone
  have hlast := (get?_insertAll_eq_none_iff.mp hnone).1
  simp [get?] at hlast

theorem Live.assign {g : Globals} {ls ls' : Locals} {x : Ident} {v : Value} (h : ls.Live)
    (hset : Scope.assign ⟨g, ls⟩ x v = .ok ls') : ls'.Live := by
  unfold Scope.assign at hset
  split at hset
  · cases hset
  · cases hset
    exact h.insert x.name v

end Locals

namespace Answer

/-- What is reported in the end of a run, with the success of flushing its output. -/
def final (r : Except Stop Value) (flushed : Except Cause Unit) : Except Stop Value :=
  match r, flushed with
  | .error .tooDeep, _ => r
  | .error (.invalidInteger _), _ => r
  | _, .ok () => r
  | _, .error cause => .error (.failed ⟨cause, none⟩)

/-- Flushing leaves the machine as it is. -/
theorem flush_eq (r : Except Stop Value) (m : Machine) :
    flush (r, m) = (final r m.console.flush, m) := by
  rcases r with (failure | text | _) | v <;> cases hflush : m.console.flush <;>
    simp [flush, final, hflush]

@[simp] theorem snd_flush (a : Answer) : a.flush.2 = a.2 := by
  rw [flush_eq]

end Answer

namespace Pairing

variable (π : Pairing)

/-- Two pieces of code end alike, or the runs have parted. -/
inductive Steps : Step α → Step α → Prop
  | done {a : α} {ls : Locals} {m m' : Machine} : ls.Live → π.together m.console m'.console →
      Steps (.done a ls m) (.done a ls m')
  | stopped {why : Stop} {m m' : Machine} : π.together m.console m'.console →
      Steps (.stopped why m) (.stopped why m')
  | apart {s s' : Step α} : π.apart s.standing s'.standing → Steps s s'

/-- Two calls end alike, or the runs have parted. -/
inductive Answers : Answer → Answer → Prop
  | both {r : Except Stop Value} {m m' : Machine} : π.together m.console m'.console →
      Answers (r, m) (r, m')
  | apart {a a' : Answer} : π.apart a.standing a'.standing → Answers a a'

/-- **Code that goes alike** in the two runs, and that does not bring them back together. -/
structure Alike (x y : Exec α) : Prop where
  steps : ∀ {ls : Locals} {m m' : Machine}, ls.Live → π.together m.console m'.console →
    π.Steps (x ls m) (y ls m')
  apart : ∀ {ls : Locals} {m : Machine} {s : Standing}, π.apart ⟨none, m.console⟩ s →
    π.apart (x ls m).standing s

/-- Calls that go alike. -/
structure Calls (f f' : Machine → Answer) : Prop where
  answers : ∀ {m m' : Machine}, π.together m.console m'.console → π.Answers (f m) (f' m')
  apart : ∀ {m : Machine} {s : Standing}, π.apart ⟨none, m.console⟩ s → π.apart (f m).standing s

variable {π}

/-! ### Laws of code that goes alike -/

theorem still {c : Console} {s : Standing} {why? : Option Stop} (h : π.apart ⟨none, c⟩ s) :
    π.apart ⟨why?, c⟩ s :=
  π.onward h .still

theorem apart_bind {x : Exec α} {f h : α → Exec β} (hf : ∀ a, π.Alike (f a) (h a)) {ls : Locals}
    {m : Machine} {s : Standing} (hx : π.apart (x ls m).standing s) :
    π.apart ((x >>= f) ls m).standing s := by
  cases hxm : x ls m with
  | done a ls₁ m₁ =>
    rw [hxm] at hx
    rw [Exec.bind_of_done hxm]
    exact (hf a).apart hx
  | stopped why m₁ =>
    rw [hxm] at hx
    rw [Exec.bind_of_stopped hxm]
    exact hx

/-- Sequences go alike when their parts do. -/
theorem Alike.bind {x y : Exec α} {f h : α → Exec β} (hx : π.Alike x y)
    (hf : ∀ a, π.Alike (f a) (h a)) : π.Alike (x >>= f) (y >>= h) where
  steps {ls m m'} hls hm := by
    have hsteps := hx.steps hls hm
    generalize hxm : x ls m = s, hym : y ls m' = s' at hsteps
    cases hsteps with
    | done hls₁ hm₁ =>
      rw [Exec.bind_of_done hxm, Exec.bind_of_done hym]
      exact (hf _).steps hls₁ hm₁
    | stopped hm₁ =>
      rw [Exec.bind_of_stopped hxm, Exec.bind_of_stopped hym]
      exact .stopped hm₁
    | apart hs =>
      rw [← hxm] at hs
      have hbind := apart_bind hf hs
      -- The second run may still go on, but that does not bring the two together.
      cases s' with
      | done a ls₁ m₁ => exact .apart (π.onward' hbind)
      | stopped why m₁ =>
        rw [Exec.bind_of_stopped hym]
        exact .apart hbind
  apart hs := apart_bind hf (hx.apart hs)

theorem alike_pure (a : α) : π.Alike (pure a) (pure a) :=
  ⟨fun hls hm => .done hls hm, fun h => h⟩

theorem alike_stop (why : Stop) : π.Alike (Exec.stop why : Exec α) (Exec.stop why) :=
  ⟨fun _ hm => .stopped hm, fun h => still h⟩

theorem alike_ofExcept (r : Except Failure α) :
    π.Alike (Exec.ofExcept r) (Exec.ofExcept r) := by
  cases r with
  | ok a => exact alike_pure a
  | error failure => exact alike_stop (.failed failure)

theorem alike_locals : π.Alike Exec.locals Exec.locals :=
  ⟨fun hls hm => .done hls hm, fun h => h⟩

/-- The log has no say. -/
theorem alike_record (e e' : Event) : π.Alike (Exec.record e) (Exec.record e') :=
  ⟨fun hls hm => .done hls hm, fun h => h⟩

theorem Alike.record_left {x y : Exec α} (h : π.Alike x y) (e : Event) :
    π.Alike (Exec.record e >>= fun _ => x) y :=
  ⟨fun hls hm => h.steps hls hm, fun hs => h.apart hs⟩

theorem Alike.record_right {x y : Exec α} (h : π.Alike x y) (e : Event) :
    π.Alike x (Exec.record e >>= fun _ => y) :=
  ⟨fun hls hm => h.steps hls hm, h.apart⟩

theorem alike_last : π.Alike Exec.last Exec.last :=
  ⟨fun hls hm => .done hls hm, fun h => h⟩

theorem alike_setLast (v : Value) : π.Alike (Exec.setLast v) (Exec.setLast v) :=
  ⟨fun _ hm => .done (Locals.live_setLast _ v) hm, fun h => h⟩

theorem Alike.callAt {f f' : Machine → Answer} (h : π.Calls f f') (site : Span) :
    π.Alike (Exec.callAt site f) (Exec.callAt site f') where
  steps {ls m m'} hls hm := by
    have hanswers := h.answers hm
    generalize hf : f m = a, hf' : f' m' = a' at hanswers
    cases hanswers with
    | @both r m₁ m₁' hm₁ =>
      cases r with
      | ok v =>
        rw [Exec.callAt_of_ok hf, Exec.callAt_of_ok hf']
        exact .done hls hm₁
      | error why =>
        rw [Exec.callAt_of_error hf, Exec.callAt_of_error hf']
        exact .stopped hm₁
    | apart hs =>
      refine .apart ?_
      rw [Exec.standing_callAt, Exec.standing_callAt, hf, hf']
      exact π.blame site (π.blame' site hs)
  apart {ls m s} hs := by
    rw [Exec.standing_callAt]
    exact π.blame site (h.apart hs)

theorem Alike.answer {x y : Exec Value} (h : π.Alike x y) {ls : Locals} (hls : ls.Live) :
    π.Calls (x.answer ls) (y.answer ls) where
  answers {m m'} hm := by
    have hsteps := h.steps hls hm
    unfold Exec.answer
    generalize x ls m = s, y ls m' = s' at hsteps
    cases hsteps with
    | done _ hm₁ => exact .both hm₁
    | stopped hm₁ => exact .both hm₁
    | apart hs =>
      refine .apart ?_
      cases s <;> cases s' <;> exact hs
  apart hs := by
    rw [Exec.standing_answer]
    exact h.apart hs

end Pairing

/-! ### Functions that stand for each other -/

/-- A function of the program replaced by another one. -/
def Function.map (twin : FunDef → FunDef) : Function → Function
  | .builtin b => .builtin b
  | .user f => .user (twin f)

/-- What a name means with functions of the program replaced by others. -/
def Binding.map (twin : FunDef → FunDef) : Binding → Binding
  | .value v => .value v
  | .function f => .function (f.map twin)

/-- Globals in which every function of the first has its `twin` in the second, under the same name
and with the same parameters. -/
structure Twins (twin : FunDef → FunDef) (g g' : Globals) : Prop where
  get? : ∀ x, g'.get? x = (g.get? x).map (Binding.map twin)
  name : ∀ f, (twin f).name.name = f.name.name
  params : ∀ f, (twin f).params.map (·.name) = f.params.map (·.name)

namespace Twins

variable {twin : FunDef → FunDef} {g g' : Globals}

theorem refl (g : Globals) : Twins id g g where
  get? x := by
    have hid : Binding.map id = id := by
      funext b
      rcases b with v | f
      · rfl
      · cases f <;> rfl
    rw [hid, Option.map_id, id]
  name f := rfl
  params f := rfl

theorem arity (h : Twins twin g g') (f : FunDef) : (twin f).arity = f.arity := by
  have hlength := congrArg List.length (h.params f)
  rwa [List.length_map, List.length_map] at hlength

theorem fresh (h : Twins twin g g') (f : FunDef) (args : List Value) :
    Locals.fresh (twin f).params args = Locals.fresh f.params args := by
  unfold Locals.fresh
  rw [h.params f]

/-- In both globals a name means the same, functions apart. -/
theorem scope (h : Twins twin g g') (ls : Locals) (x : String) :
    Scope.get? ⟨g', ls⟩ x = (Scope.get? ⟨g, ls⟩ x).map (Binding.map twin) := by
  unfold Scope.get?
  cases ls.get? x with
  | some v => rfl
  | none => exact h.get? x

theorem value (h : Twins twin g g') (ls : Locals) (x : Ident) :
    Scope.value ⟨g', ls⟩ x = Scope.value ⟨g, ls⟩ x := by
  unfold Scope.value
  rw [h.scope]
  rcases Scope.get? ⟨g, ls⟩ x.name with _ | v | f <;> rfl

theorem valueOf? (h : Twins twin g g') (ls : Locals) :
    Scope.valueOf? ⟨g', ls⟩ = Scope.valueOf? ⟨g, ls⟩ := by
  funext x
  unfold Scope.valueOf?
  rw [h.scope]
  rcases Scope.get? ⟨g, ls⟩ x with _ | v | f <;> rfl

theorem eval (h : Twins twin g g') (ls : Locals) (lit : StrLit) :
    lit.eval ⟨g', ls⟩ = lit.eval ⟨g, ls⟩ := by
  unfold StrLit.eval
  rw [h.valueOf?]

theorem assign (h : Twins twin g g') (ls : Locals) (x : Ident) (v : Value) :
    Scope.assign ⟨g', ls⟩ x v = Scope.assign ⟨g, ls⟩ x v := by
  have hfunction : g'.isFunction x.name = g.isFunction x.name := by
    unfold Globals.isFunction
    rw [h.get?]
    rcases g.get? x.name with _ | w | f <;> rfl
  unfold Scope.assign Scope.isProtected
  rw [hfunction]

theorem callee (h : Twins twin g g') (ls : Locals) (x : Ident) (site : Span) :
    Scope.callee ⟨g', ls⟩ x site = (Scope.callee ⟨g, ls⟩ x site).map (Function.map twin) := by
  unfold Scope.callee
  rw [h.scope]
  rcases Scope.get? ⟨g, ls⟩ x.name with _ | v | f <;> rfl

end Twins

namespace Pairing

/-- Ways to run functions under which each function goes like its twin. -/
def Invokes (π : Pairing) (twin : FunDef → FunDef) (invoke invoke' : Invoke) : Prop :=
  ∀ f args, π.Calls (invoke f args) (invoke' (twin f) args)

variable {π : Pairing} {twin : FunDef → FunDef} {g g' : Globals} {invoke invoke' : Invoke}

/-! ### Calls -/

theorem calls_record {f f' : Machine → Answer} (h : π.Calls f f') (e e' : Event) :
    π.Calls (fun m => f (m.record e)) (fun m => f' (m.record e')) :=
  ⟨fun hm => h.answers hm, fun hs => h.apart hs⟩

/-- A predefined function goes alike in both runs, or parts them. -/
theorem agree_call (b : Builtin) (args : List Value) {c c' : Console} (h : π.together c c') :
    Agree π.together π.apart (b.call args c) (b.call args c') := by
  rcases b.call_cases args with ⟨r, hcall⟩ | hcall | hcall
  · rw [hcall, hcall]
    exact Or.inl ⟨rfl, h⟩
  · rw [hcall, hcall]
    exact (π.write _ h).map _
  · rw [hcall, hcall]
    exact (π.read h).map _

theorem calls_builtin (b : Builtin) (args : List Value) :
    π.Calls ((Function.builtin b).apply invoke args) ((Function.builtin b).apply invoke' args) where
  answers {m m'} hm := by
    rcases agree_call b args hm with ⟨hr, hc⟩ | hs
    · unfold Function.apply
      simp only [Machine.record_console]
      generalize b.call args m.console = r, b.call args m'.console = r' at hr hc
      obtain ⟨cause | v, c⟩ := r
      · cases r'
        cases hr
        exact .both hc
      · cases r'
        cases hr
        exact .both hc
    · refine .apart ?_
      rw [Function.standing_apply_builtin, Function.standing_apply_builtin]
      exact hs
  apart {m s} hs := by
    have hnext := b.call_next args m.console
    rw [Function.standing_apply_builtin]
    generalize b.call args m.console = r at hnext
    obtain ⟨cause | v, c⟩ := r
    · exact π.onward hs hnext
    · exact π.onward hs hnext

/-- A call goes alike when the function does. -/
theorem calls_apply (hg : Twins twin g g') (hi : π.Invokes twin invoke invoke') (f : Function)
    (args : List Value) : π.Calls (f.apply invoke args) ((f.map twin).apply invoke' args) := by
  cases f with
  | builtin b => exact calls_builtin b args
  | user f =>
    have harity' := hg.arity f
    by_cases harity : f.arity = args.length
    · rw [Function.map, Function.apply_of_arity_eq harity,
        Function.apply_of_arity_eq (harity'.trans harity)]
      exact calls_record (hi f args) _ _
    · rw [Function.map, Function.apply_of_arity_ne harity,
        Function.apply_of_arity_ne (fun h => harity (harity'.symm.trans h)), harity', hg.name]
      exact ⟨fun hm => .both hm, fun hs => still hs⟩

/-! ### Expressions -/

theorem alike_exprs {es : List Expr}
    (h : ∀ e ∈ es, π.Alike (Eval.expr g invoke e) (Eval.expr g' invoke' e)) :
    π.Alike (Eval.exprs g invoke es) (Eval.exprs g' invoke' es) := by
  induction es with
  | nil => exact alike_pure []
  | cons e es ih =>
    rw [Eval.exprs_cons, Eval.exprs_cons]
    refine (h e (List.mem_cons_self ..)).bind fun v => ?_
    exact (ih fun e' he' => h e' (List.mem_cons_of_mem e he')).bind fun vs => alike_pure (v :: vs)

theorem alike_name (hg : Twins twin g g') (x : Ident) :
    π.Alike (Eval.name g x) (Eval.name g' x) := by
  unfold Eval.name
  refine alike_locals.bind fun ls => ?_
  rw [hg.value]
  exact alike_ofExcept _

theorem alike_string (hg : Twins twin g g') (lit : StrLit) (span : Span) :
    π.Alike (Eval.string g lit span) (Eval.string g' lit span) := by
  unfold Eval.string
  refine alike_locals.bind fun ls => ?_
  rw [hg.eval]
  cases lit.eval ⟨g, ls⟩ with
  | ok text => exact alike_pure _
  | error cause => exact alike_stop _

theorem alike_number (κ : NumberKind) (text : String) (span : Span) :
    π.Alike (Eval.number κ text span) (Eval.number κ text span) := by
  cases κ with
  | dec =>
    unfold Eval.number
    cases Decimal.literal? text with
    | some i => exact alike_pure _
    | none => exact alike_stop _
  | hex | oct | bin | float | imag => exact alike_stop _

theorem alike_assign (hg : Twins twin g g') (x : Ident) (v : Value) :
    π.Alike (Eval.assign g x v) (Eval.assign g' x v) := by
  -- What is assigned depends on the variables only, and so does whether it may be.
  have hassign : ∀ {h : Globals} {ls : Locals} (m : Machine),
      Scope.assign ⟨h, ls⟩ x v = Scope.assign ⟨g, ls⟩ x v → Eval.assign h x v ls m =
        match Scope.assign ⟨g, ls⟩ x v with
        | .ok ls' => .done () ls' m
        | .error failure => .stopped (.failed failure) m := by
    intro h ls m heq
    unfold Eval.assign
    rw [Exec.bind_of_done Exec.locals_apply, heq]
    cases Scope.assign ⟨g, ls⟩ x v <;> rfl
  constructor
  · intro ls m m' hls hm
    rw [hassign m rfl, hassign m' (hg.assign ls x v)]
    cases hset : Scope.assign ⟨g, ls⟩ x v with
    | ok ls' => exact .done (hls.assign hset) hm
    | error failure => exact .stopped hm
  · intro ls m s hs
    rw [hassign m rfl]
    cases Scope.assign ⟨g, ls⟩ x v with
    | ok ls' => exact hs
    | error failure => exact still hs

/-- **A call:** the function is looked up alike, the arguments go alike, and so does the function. -/
theorem alike_call (hg : Twins twin g g') (hi : π.Invokes twin invoke invoke') (x : Ident)
    {es : List Expr} (span : Span)
    (h : ∀ e ∈ es, π.Alike (Eval.expr g invoke e) (Eval.expr g' invoke' e)) :
    π.Alike (Eval.expr g invoke (.call x es span)) (Eval.expr g' invoke' (.call x es span)) := by
  have hrest : ∀ f : Function, π.Alike
      (Eval.exprs g invoke es >>= fun vs => Exec.callAt span (f.apply invoke vs))
      (Eval.exprs g' invoke' es >>= fun vs => Exec.callAt span ((f.map twin).apply invoke' vs)) :=
    fun f => (alike_exprs h).bind fun vs => .callAt (calls_apply hg hi f vs) span
  rw [Eval.expr_call, Eval.expr_call]
  constructor
  · intro ls m m' hls hm
    have hcallee := hg.callee ls x span
    cases hf : Scope.callee ⟨g, ls⟩ x span with
    | error failure =>
      rw [hf] at hcallee
      rw [Exec.bind_of_stopped (Eval.callee_eq_stopped_iff.mpr ⟨_, hf, rfl, rfl⟩),
        Exec.bind_of_stopped (Eval.callee_eq_stopped_iff.mpr ⟨_, hcallee, rfl, rfl⟩)]
      exact .stopped hm
    | ok f =>
      rw [hf] at hcallee
      rw [Exec.bind_of_done (Eval.callee_eq_done_iff.mpr ⟨hf, rfl, rfl⟩),
        Exec.bind_of_done (Eval.callee_eq_done_iff.mpr ⟨hcallee, rfl, rfl⟩)]
      exact (hrest f).steps hls hm
  · intro ls m s hs
    cases hf : Scope.callee ⟨g, ls⟩ x span with
    | error failure =>
      rw [Exec.bind_of_stopped (Eval.callee_eq_stopped_iff.mpr ⟨_, hf, rfl, rfl⟩)]
      exact still hs
    | ok f =>
      rw [Exec.bind_of_done (Eval.callee_eq_done_iff.mpr ⟨hf, rfl, rfl⟩)]
      exact (hrest f).apart hs

/-- **Expressions go alike.** -/
theorem alike_expr (hg : Twins twin g g') (hi : π.Invokes twin invoke invoke') (e : Expr) :
    π.Alike (Eval.expr g invoke e) (Eval.expr g' invoke' e) := by
  induction e using Expr.induction with
  | call x es span ih => exact alike_call hg hi x span ih
  | assign x e span ih =>
    rw [Eval.expr_assign, Eval.expr_assign]
    exact ih.bind fun v => (alike_assign hg x v).bind fun _ => alike_pure v
  | name x span => exact alike_name hg x
  | string lit span => exact alike_string hg lit span
  | number κ text span => exact alike_number κ text span

end Pairing

/-! ### Statements -/

/-- A branch with its body rewritten. -/
def Branch.map (φ : Body → Body) : Branch → Branch
  | .mk test b => .mk test (φ b)

@[simp] theorem Branch.body_map (φ : Body → Body) (br : Branch) :
    (br.map φ).body = φ br.body := by
  cases br
  rfl

theorem Branch.map_id : Branch.map id = id := by
  funext br
  cases br
  rfl

namespace Pairing

variable {π : Pairing} {twin : FunDef → FunDef} {g g' : Globals} {invoke invoke' : Invoke}

theorem alike_line (hg : Twins twin g g') (hi : π.Invokes twin invoke invoke') (e : Expr)
    (span : Span) :
    π.Alike (Eval.stmt g invoke (.line e span)) (Eval.stmt g' invoke' (.line e span)) :=
  (alike_record _ _).bind fun _ => alike_expr hg hi e

theorem alike_block {b b' : Body} (span span' : Span)
    (h : π.Alike (Eval.body g invoke b) (Eval.body g' invoke' b')) :
    π.Alike (Eval.stmt g invoke (.block b span)) (Eval.stmt g' invoke' (.block b' span')) :=
  (alike_record _ _).bind fun _ => h

/-- A branch goes alike when its body and what else there is to run do. -/
theorem alike_branches_cons (hg : Twins twin g g') (hi : π.Invokes twin invoke invoke') (e : Expr)
    {b b' : Body} {brs brs' : List Branch} {o o' : Exec Value}
    (hb : π.Alike (Eval.body g invoke b) (Eval.body g' invoke' b'))
    (hbrs : π.Alike (Eval.branches g invoke brs o) (Eval.branches g' invoke' brs' o')) :
    π.Alike (Eval.branches g invoke (.mk e b :: brs) o)
      (Eval.branches g' invoke' (.mk e b' :: brs') o') := by
  rw [Eval.branches_cons, Eval.branches_cons]
  refine (alike_expr hg hi e).bind fun v => ?_
  cases v.truth with
  | true => exact hb
  | false => exact hbrs

/-- Branches go alike when their bodies do. -/
theorem alike_cond (hg : Twins twin g g') (hi : π.Invokes twin invoke invoke') {φ : Body → Body}
    {brs : List Branch} {o : Option Body} (span span' : Span)
    (hbrs : ∀ br ∈ brs,
      π.Alike (Eval.body g invoke br.body) (Eval.body g' invoke' (φ br.body)))
    (ho : ∀ b ∈ o, π.Alike (Eval.body g invoke b) (Eval.body g' invoke' (φ b))) :
    π.Alike (Eval.stmt g invoke (.cond brs o span))
      (Eval.stmt g' invoke' (.cond (brs.map (Branch.map φ)) (o.map φ) span')) := by
  refine (alike_record _ _).bind fun _ => ?_
  induction brs with
  | nil =>
    cases o with
    | none => exact alike_last
    | some b => exact ho b rfl
  | cons br brs ih =>
    obtain ⟨e, b⟩ := br
    refine alike_branches_cons hg hi e (hbrs _ (List.mem_cons_self ..)) ?_
    exact ih fun br' hbr' => hbrs br' (List.mem_cons_of_mem _ hbr')

theorem alike_stmts_cons {s s' : Stmt} {ss ss' : List Stmt}
    (hs : π.Alike (Eval.stmt g invoke s) (Eval.stmt g' invoke' s'))
    (hss : π.Alike (Eval.stmts g invoke ss) (Eval.stmts g' invoke' ss')) :
    π.Alike (Eval.stmts g invoke (s :: ss)) (Eval.stmts g' invoke' (s' :: ss')) := by
  rw [Eval.stmts_cons, Eval.stmts_cons]
  exact hs.bind fun v => (alike_setLast v).bind fun _ => hss

/-- Statements go alike when each of them does. -/
theorem alike_stmts {φ : Stmt → Stmt} {ss : List Stmt}
    (h : ∀ s ∈ ss, π.Alike (Eval.stmt g invoke s) (Eval.stmt g' invoke' (φ s))) :
    π.Alike (Eval.stmts g invoke ss) (Eval.stmts g' invoke' (ss.map φ)) := by
  induction ss with
  | nil => exact alike_last
  | cons s ss ih =>
    rw [List.map_cons]
    refine alike_stmts_cons (h s (List.mem_cons_self ..)) ?_
    exact ih fun s' hs' => h s' (List.mem_cons_of_mem s hs')

theorem alike_cases (hg : Twins twin g g') (hi : π.Invokes twin invoke invoke') :
    Stmt.Cases (fun s => π.Alike (Eval.stmt g invoke s) (Eval.stmt g' invoke' s))
      (fun b => π.Alike (Eval.body g invoke b) (Eval.body g' invoke' b)) where
  line e span := alike_line hg hi e span
  block b span hb := alike_block span span hb
  cond brs o span hbrs ho := by
    have h := alike_cond hg hi (φ := id) span span hbrs ho
    rwa [Branch.map_id, List.map_id, Option.map_id, id] at h
  body ss span hss := by
    have h := alike_stmts (φ := id) hss
    rwa [List.map_id] at h

/-- **The same body goes alike** under globals that stand for each other. -/
theorem alike_body (hg : Twins twin g g') (hi : π.Invokes twin invoke invoke') (b : Body) :
    π.Alike (Eval.body g invoke b) (Eval.body g' invoke' b) :=
  (alike_cases hg hi).body' b

/-! ### Functions and programs -/

theorem invokes_zero : π.Invokes twin (Offside.invoke g 0) (Offside.invoke g' 0) :=
  fun _ _ => ⟨fun hm => .both hm, fun hs => still hs⟩

/-- **Functions whose bodies go like those of their twins go alike at every depth of calls.**  The
second run may have `k` more levels, if a run that has used up its own can be told apart. -/
theorem invokes_of_bodies {k : Nat} (hg : Twins twin g g')
    (hzero : π.Invokes twin (Offside.invoke g 0) (Offside.invoke g' k))
    (hbodies : ∀ {i i' : Invoke}, π.Invokes twin i i' → ∀ f : FunDef,
      π.Alike (Eval.body g i f.body) (Eval.body g' i' (twin f).body)) (d : Nat) :
    π.Invokes twin (Offside.invoke g d) (Offside.invoke g' (d + k)) := by
  induction d with
  | zero =>
    rw [Nat.zero_add]
    exact hzero
  | succ d ih =>
    intro f args
    have hcalls := (hbodies ih f).answer (Locals.live_fresh f.params args)
    rw [Nat.succ_add]
    change π.Calls _ ((Eval.body g' (Offside.invoke g' (d + k)) (twin f).body).answer
      (.fresh (twin f).params args))
    rw [hg.fresh]
    exact hcalls

theorem calls_main {d d' : Nat} (hg : Twins twin g g')
    (hi : π.Invokes twin (Offside.invoke g d) (Offside.invoke g' d')) :
    π.Calls (g.callMain d) (g'.callMain d') := by
  unfold Globals.callMain
  rw [hg.get?]
  rcases g.get? "main" with _ | v | f
  · exact ⟨fun hm => .both hm, fun hs => still hs⟩
  · exact ⟨fun hm => .both hm, fun hs => still hs⟩
  · exact calls_apply hg hi f []

theorem Answers.flush {a a' : Answer} (h : π.Answers a a') : π.Answers a.flush a'.flush := by
  cases h with
  | apart hs => exact .apart (π.finish hs)
  | @both r m m' hm =>
    rw [Answer.flush_eq, Answer.flush_eq, π.flush hm]
    exact .both hm

/-- Registering functions changes the log only. -/
theorem console_defining (fs : List FunDef) (m : Machine) :
    (fs.foldl (fun m f => m.record (.defining f.name.name f.arity)) m).console = m.console := by
  induction fs generalizing m with
  | nil => rfl
  | cons f fs ih => exact ih _

/-- **Programs whose functions go alike have runs that go together or part.** -/
theorem interpret {p p' : Program} {o : Option Failure} {d d' : Nat} {m m' : Machine}
    (hload : Globals.extend {} p.funs = (g, o)) (hload' : Globals.extend {} p'.funs = (g', o))
    (hg : Twins twin g g') (hi : π.Invokes twin (Offside.invoke g d) (Offside.invoke g' d'))
    (hm : π.together m.console m'.console) :
    π.Answers (p.interpret d m) (p'.interpret d' m') := by
  unfold Program.interpret
  rw [hload, hload']
  have hdefined : π.together
      (g.funs.foldl (fun m f => m.record (.defining f.name.name f.arity)) m).console
      (g'.funs.foldl (fun m f => m.record (.defining f.name.name f.arity)) m').console := by
    rw [console_defining, console_defining]
    exact hm
  cases o with
  | some failure => exact .both hdefined
  | none => exact ((calls_main hg hi).answers hdefined).flush

/-- Runs of one program under one bound on nested calls go together or part. -/
theorem interpret_same {p : Program} (d : Nat) {m m' : Machine}
    (hm : π.together m.console m'.console) : π.Answers (p.interpret d m) (p.interpret d m') :=
  interpret rfl rfl (.refl _)
    (invokes_of_bodies (.refl _) invokes_zero (fun hi f => alike_body (.refl _) hi f.body) d) hm

/-! ### Runs on one console -/

/-- Two runs on one console.  They part when the first is cut off for nesting calls too deep, if
`cut` is set, and never otherwise. -/
def onOne (cut : Bool) : Pairing where
  together c c' := c = c'
  apart s _ := cut = true ∧ s.why? = some .tooDeep
  write text h := by
    rw [h]
    exact Or.inl ⟨rfl, rfl⟩
  read h := by
    rw [h]
    exact Or.inl ⟨rfl, rfl⟩
  flush h := by rw [h]
  onward h _ := by cases h.2
  onward' h := h
  blame site h := by
    refine ⟨h.1, ?_⟩
    unfold Standing.blamed
    rw [h.2]
    rfl
  blame' _ h := h
  finish {a a'} h := by
    obtain ⟨hcut, hwhy⟩ := h
    rcases a with ⟨(failure | text | _) | v, m⟩
    · cases hwhy
    · cases hwhy
    · exact ⟨hcut, rfl⟩
    · cases hwhy

/-- Two runs on one console that do the same all the way. -/
def same : Pairing := onOne false

theorem same_apart {s s' : Standing} (h : same.apart s s') : False := by
  cases h.1

end Pairing

end Offside
