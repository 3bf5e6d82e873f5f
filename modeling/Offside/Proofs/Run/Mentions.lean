import Offside.Proofs.Run.Scopes

/-!
# The names that code mentions

What code does depends only on what the names that it mentions mean.  A name is mentioned as the
function of a call, as the target of an assignment, as a value, or in a placeholder of a template.

* **the names that code mentions**: `Template.keys`, `Item.mentions`, `Program.mentions`;
* variables that agree on some names: `Locals.AgreeOn`; code that does the same on such variables,
  with one law for each form of code: `Exec.Agrees`;
* **code does the same where the names that it mentions mean the same**: `Eval.agrees_expr`,
  `Eval.agrees_body`.
-/

namespace Offside

/-! ### Placeholders -/

namespace Template

/-- The names in the placeholders of a template, as far as it can be read.  With `some key`, the
characters of `key` have been read since a brace opened, the last one first. -/
def keysFrom : Option (List Char) → List Char → List String
  | _, [] => []
  | none, '\x7b' :: '\x7b' :: cs => keysFrom none cs
  | none, '\x7d' :: '\x7d' :: cs => keysFrom none cs
  | none, c :: cs =>
    if c = '\x7d' then []
    else if c = '\x7b' then keysFrom (some []) cs
    else keysFrom none cs
  | some key, c :: cs =>
    if c = '\x7d' then
      if isKey key.reverse then String.ofList key.reverse :: keysFrom none cs else []
    else if c = '\x7b' then []
    else keysFrom (some (c :: key)) cs

/-- **The names in the placeholders of a template.** -/
def keys (content : String) : List String :=
  keysFrom none content.toList

variable {lookup lookup' : String → Option String}

theorem resolve_congr {key : List Char} (h : lookup' (String.ofList key) = lookup (String.ofList key)) :
    resolve lookup' key = resolve lookup key := by
  unfold resolve
  rw [h]

/-- A placeholder whose text is not a name is a problem, whatever is known. -/
theorem resolve_of_not_isKey {key : List Char} (h : ¬ isKey key = true) :
    ∃ problem, ∀ lookup, resolve lookup key = .error problem := by
  by_cases hempty : key = []
  · exact ⟨.emptyKey, fun lookup => by simp [resolve, hempty]⟩
  · exact ⟨.badKey (String.ofList key), fun lookup => by simp [resolve, hempty, h]⟩

theorem fillFrom_congr (state : Option (List Char)) (cs : List Char)
    (h : ∀ key ∈ keysFrom state cs, lookup' key = lookup key) :
    fillFrom lookup' state cs = fillFrom lookup state cs := by
  fun_induction keysFrom state cs with
  | case1 state => cases state <;> rfl
  | case2 cs ih => simp only [fillFrom, ih h]
  | case3 cs ih => simp only [fillFrom, ih h]
  | case4 cs _ hclose =>
    rw [fillFrom, fillFrom]
    · simp only [if_true]
    all_goals assumption
  | case5 cs hopen hclose hne ih =>
    rw [fillFrom, fillFrom]
    · simp only [hne, if_false, if_true, ih h]
    all_goals assumption
  | case6 c cs hopen hclose hc hc' ih =>
    rw [fillFrom, fillFrom]
    · simp only [hc, hc', if_false, ih h]
    all_goals assumption
  | case7 key cs hkey ih =>
    rw [List.forall_mem_cons] at h
    simp only [fillFrom, if_true, resolve_congr h.1, ih h.2]
  | case8 key cs hkey =>
    obtain ⟨problem, hproblem⟩ := resolve_of_not_isKey hkey
    simp only [fillFrom, if_true, hproblem]
    rfl
  | case9 key cs hne => simp only [fillFrom, hne, if_false, if_true]
  | case10 key c cs hc hc' ih => simp only [fillFrom, hc, hc', if_false, ih h]

/-- What a template is filled with depends on the names in its placeholders only. -/
theorem fill_congr {content : String} (h : ∀ key ∈ keys content, lookup' key = lookup key) :
    fill lookup' content = fill lookup content := by
  unfold fill
  rw [fillFrom_congr none content.toList h]

end Template

/-! ### Mentioned names -/

/-- The names in the placeholders of a literal, if it is a template. -/
def StrLit.keys (lit : StrLit) : List String :=
  if lit.isTemplate then Template.keys lit.content else []

/-- The names that an item mentions itself, apart from the items in it. -/
def Item.mentions : Item → List String
  | .expr (.call f _ _) => [f.name]
  | .expr (.assign x _ _) => [x.name]
  | .expr (.name x _) => [x.name]
  | .expr (.string lit _) => lit.keys
  | _ => []

/-- **The names that a program mentions.** -/
def Program.mentions (p : Program) : List String :=
  p.items.flatMap Item.mentions

/-- Items that mention names of `S` only. -/
def Mention (S : String → Prop) (items : List Item) : Prop :=
  ∀ i ∈ items, ∀ x ∈ i.mentions, S x

variable {S : String → Prop}

theorem mention_flatMap_iff {items : List Item} :
    Mention S items ↔ ∀ x ∈ items.flatMap Item.mentions, S x := by
  constructor
  · intro h x hx
    obtain ⟨i, hi, hx⟩ := List.mem_flatMap.mp hx
    exact h i hi x hx
  · intro h i hi x hx
    exact h x (List.mem_flatMap.mpr ⟨i, hi, hx⟩)

theorem mention_cons_iff {i : Item} {items : List Item} :
    Mention S (i :: items) ↔ (∀ x ∈ i.mentions, S x) ∧ Mention S items :=
  List.forall_mem_cons

theorem mention_append_iff {is js : List Item} :
    Mention S (is ++ js) ↔ Mention S is ∧ Mention S js :=
  List.forall_mem_append

/-! ### Variables that agree -/

/-- Variables that agree on the names of `S`. -/
def Locals.AgreeOn (S : String → Prop) (ls ls' : Locals) : Prop :=
  ∀ x, S x → ls'.get? x = ls.get? x

/-- Globals that agree on the names of `S`. -/
def Globals.AgreeOn (S : String → Prop) (g g' : Globals) : Prop :=
  ∀ x, S x → g'.get? x = g.get? x

theorem Locals.AgreeOn.insert {ls ls' : Locals} (h : ls.AgreeOn S ls') (x : String) (v : Value) :
    (ls.insert x v).AgreeOn S (ls'.insert x v) := by
  intro y hy
  rw [get?_insert, get?_insert, h y hy]

theorem Locals.AgreeOn.last_eq {ls ls' : Locals} (h : ls.AgreeOn S ls') (hlast : S lastName) :
    ls'.last = ls.last := by
  unfold last
  rw [h lastName hlast]

section
variable {g g' : Globals} {ls ls' : Locals} (hg : g.AgreeOn S g') (hls : ls.AgreeOn S ls')
include hg hls

theorem Scope.get?_agree {x : String} (hx : S x) : get? ⟨g', ls'⟩ x = get? ⟨g, ls⟩ x := by
  unfold get?
  rw [hls x hx]
  cases ls.get? x with
  | some v => rfl
  | none => exact hg x hx

theorem Scope.callee_agree {x : Ident} (hx : S x.name) (site : Span) :
    callee ⟨g', ls'⟩ x site = callee ⟨g, ls⟩ x site := by
  unfold callee
  rw [get?_agree hg hls hx]

theorem Scope.value_agree {x : Ident} (hx : S x.name) : value ⟨g', ls'⟩ x = value ⟨g, ls⟩ x := by
  unfold value
  rw [get?_agree hg hls hx]

theorem Scope.isProtected_agree {x : String} (hx : S x) :
    isProtected ⟨g', ls'⟩ x = isProtected ⟨g, ls⟩ x := by
  have hfunction : g'.isFunction x = g.isFunction x := by
    unfold Globals.isFunction
    rw [hg x hx]
  unfold isProtected
  rw [hfunction, hls x hx]

theorem StrLit.eval_agree {lit : StrLit} (hlit : ∀ x ∈ lit.keys, S x) :
    lit.eval ⟨g', ls'⟩ = lit.eval ⟨g, ls⟩ := by
  unfold eval
  split
  · next htemplate =>
    unfold Template.substitute
    rw [Template.fill_congr]
    intro key hkey
    have hS : S key := hlit key (by rwa [StrLit.keys, if_pos htemplate])
    unfold Template.shown Scope.valueOf?
    rw [Scope.get?_agree hg hls hS]
  · rfl

end

/-! ### Code that does the same -/

/-- Two steps that give the same and leave variables that agree. -/
inductive Step.Agrees {α : Type} (S : String → Prop) : Step α → Step α → Prop
  | done {a : α} {ls ls' : Locals} {m : Machine} : ls.AgreeOn S ls' →
      Agrees S (.done a ls m) (.done a ls' m)
  | stopped {why : Stop} {m : Machine} : Agrees S (.stopped why m) (.stopped why m)

/-- **Code that does the same** on variables that agree. -/
def Exec.Agrees {α : Type} (S : String → Prop) (x y : Exec α) : Prop :=
  ∀ ls ls' m, Locals.AgreeOn S ls ls' → (x ls m).Agrees S (y ls' m)

namespace Exec

variable {α β : Type}

theorem Agrees.bind {x y : Exec α} {k k' : α → Exec β} (hx : Agrees S x y)
    (hk : ∀ a, Agrees S (k a) (k' a)) : Agrees S (x >>= k) (y >>= k') := by
  intro ls ls' m hls
  have hstep := hx ls ls' m hls
  generalize hxm : x ls m = s, hym : y ls' m = s' at hstep
  cases hstep with
  | done hls₁ =>
    rw [bind_of_done hxm, bind_of_done hym]
    exact hk _ _ _ _ hls₁
  | stopped =>
    rw [bind_of_stopped hxm, bind_of_stopped hym]
    exact .stopped

theorem agrees_pure (a : α) : Agrees S (pure a) (pure a) :=
  fun _ _ _ hls => .done hls

theorem agrees_stop (why : Stop) : Agrees S (stop why : Exec α) (stop why) :=
  fun _ _ _ _ => .stopped

theorem agrees_record (e : Event) : Agrees S (record e) (record e) :=
  fun _ _ _ hls => .done hls

theorem agrees_setLast (v : Value) : Agrees S (setLast v) (setLast v) :=
  fun _ _ _ hls => .done (hls.insert _ v)

theorem agrees_last (hlast : S Locals.lastName) : Agrees S last last := by
  intro ls ls' m hls
  unfold last
  rw [hls.last_eq hlast]
  exact .done hls

/-- A call has variables of its own. -/
theorem agrees_callAt (site : Span) (c : Machine → Answer) : Agrees S (callAt site c) (callAt site c) := by
  intro ls ls' m hls
  rcases hc : c m with ⟨why | v, m₁⟩
  · rw [callAt_of_error hc, callAt_of_error hc]
    exact .stopped
  · rw [callAt_of_ok hc, callAt_of_ok hc]
    exact .done hls

theorem Agrees.answer {x y : Exec Value} (h : Agrees S x y) {ls ls' : Locals}
    (hls : ls.AgreeOn S ls') (m : Machine) : y.answer ls' m = x.answer ls m := by
  have hstep := h ls ls' m hls
  unfold Exec.answer
  generalize x ls m = s, y ls' m = s' at hstep
  cases hstep <;> rfl

end Exec

/-- Ways to run functions that do the same for all functions of the program. -/
def Invoke.Agrees (g : Globals) (invoke invoke' : Invoke) : Prop :=
  ∀ f ∈ g.funs, ∀ args m, invoke' f args m = invoke f args m

theorem Function.apply_agree {g : Globals} {invoke invoke' : Invoke}
    (hi : Invoke.Agrees g invoke invoke') {x : String} {f : Function}
    (hf : g.get? x = some (.function f)) (args : List Value) :
    f.apply invoke' args = f.apply invoke args := by
  cases f with
  | builtin b => rfl
  | user f =>
    funext m
    unfold Function.apply
    simp only [hi f (Globals.get?_eq_user hf).1]

namespace Eval

variable {g g' : Globals} {invoke invoke' : Invoke} (hg : g.AgreeOn S g')
  (hi : Invoke.Agrees g invoke invoke')

open Exec

/-! ### Expressions -/

section
include hg

theorem agrees_name {x : Ident} (hx : S x.name) : Agrees S (name g x) (name g' x) := by
  intro ls ls' m hls
  unfold name
  rw [bind_of_done locals_apply, bind_of_done locals_apply, Scope.value_agree hg hls hx]
  cases Scope.value ⟨g, ls⟩ x with
  | ok v => exact .done hls
  | error failure => exact .stopped

theorem agrees_assign {x : Ident} (hx : S x.name) (v : Value) :
    Agrees S (assign g x v) (assign g' x v) := by
  intro ls ls' m hls
  unfold assign Scope.assign
  rw [bind_of_done locals_apply, bind_of_done locals_apply, Scope.isProtected_agree hg hls hx]
  cases Scope.isProtected ⟨g, ls⟩ x.name with
  | true => exact .stopped
  | false => exact .done (hls.insert x.name v)

theorem agrees_string {lit : StrLit} (hlit : ∀ x ∈ lit.keys, S x) (span : Span) :
    Agrees S (string g lit span) (string g' lit span) := by
  intro ls ls' m hls
  unfold string
  rw [bind_of_done locals_apply, bind_of_done locals_apply, StrLit.eval_agree hg hls hlit]
  cases lit.eval ⟨g, ls⟩ with
  | ok text => exact .done hls
  | error cause => exact .stopped

end

theorem agrees_number (κ : NumberKind) (text : String) (span : Span) :
    Agrees S (number κ text span) (number κ text span) := by
  cases κ with
  | dec =>
    unfold number
    cases Decimal.literal? text with
    | some i => exact agrees_pure _
    | none => exact agrees_stop _
  | hex | oct | bin | float | imag => exact agrees_stop _

theorem agrees_exprs {es : List Expr}
    (h : ∀ e ∈ es, Agrees S (expr g invoke e) (expr g' invoke' e)) :
    Agrees S (exprs g invoke es) (exprs g' invoke' es) := by
  induction es with
  | nil => exact agrees_pure []
  | cons e es ih =>
    rw [exprs_cons, exprs_cons]
    refine (h e (List.mem_cons_self ..)).bind fun v => ?_
    exact (ih fun e' he' => h e' (List.mem_cons_of_mem e he')).bind fun vs => agrees_pure (v :: vs)

include hg hi

/-- **A call:** the function is looked up alike, and it does the same. -/
theorem agrees_call {x : Ident} {es : List Expr} {span : Span} (hx : S x.name)
    (h : ∀ e ∈ es, Agrees S (expr g invoke e) (expr g' invoke' e)) :
    Agrees S (expr g invoke (.call x es span)) (expr g' invoke' (.call x es span)) := by
  rw [expr_call, expr_call]
  intro ls ls' m hls
  have hcallee := Scope.callee_agree hg hls hx span
  cases hf : Scope.callee ⟨g, ls⟩ x span with
  | error failure =>
    rw [hf] at hcallee
    rw [bind_of_stopped (callee_eq_stopped_iff.mpr ⟨_, hf, rfl, rfl⟩),
      bind_of_stopped (callee_eq_stopped_iff.mpr ⟨_, hcallee, rfl, rfl⟩)]
    exact .stopped
  | ok f =>
    rw [hf] at hcallee
    rw [bind_of_done (callee_eq_done_iff.mpr ⟨hf, rfl, rfl⟩),
      bind_of_done (callee_eq_done_iff.mpr ⟨hcallee, rfl, rfl⟩)]
    refine (agrees_exprs h).bind (fun vs => ?_) ls ls' m hls
    rw [Function.apply_agree hi (Scope.callee_eq_ok hf)]
    exact agrees_callAt span _

/-- **Expressions do the same** where the names that they mention mean the same. -/
theorem agrees_expr {e : Expr} (he : Mention S e.items) :
    Agrees S (expr g invoke e) (expr g' invoke' e) := by
  induction e using Expr.induction with
  | call x es span ih =>
    rw [Expr.items, mention_cons_iff, mention_cons_iff] at he
    obtain ⟨hx, -, hes⟩ := he
    refine agrees_call hg hi (hx x.name (by simp [Item.mentions])) fun e hmem => ih e hmem ?_
    exact fun i hi => hes i (Expr.mem_itemsAll_iff.mpr ⟨e, hmem, hi⟩)
  | assign x e span ih =>
    rw [Expr.items, mention_cons_iff, mention_cons_iff] at he
    obtain ⟨hx, -, he⟩ := he
    rw [expr_assign, expr_assign]
    refine (ih he).bind fun v => ?_
    exact (agrees_assign hg (hx x.name (by simp [Item.mentions])) v).bind fun _ => agrees_pure v
  | name x span =>
    rw [Expr.items, mention_cons_iff] at he
    exact agrees_name hg (he.1 x.name (by simp [Item.mentions]))
  | string lit span =>
    rw [Expr.items, mention_cons_iff] at he
    exact agrees_string hg he.1 span
  | number κ text span => exact agrees_number κ text span

/-! ### Statements -/

variable (hlast : S Locals.lastName)
include hlast

theorem agrees_branches {brs : List Branch} {o : Option Body} (hbrs : Mention S (Branch.itemsAll brs))
    (ho : Mention S (Body.itemsOption o))
    (h : ∀ br ∈ brs, Mention S br.body.items →
      Agrees S (body g invoke br.body) (body g' invoke' br.body))
    (h' : ∀ b ∈ o, Mention S b.items → Agrees S (body g invoke b) (body g' invoke' b)) :
    Agrees S (branches g invoke brs (orElse g invoke o))
      (branches g' invoke' brs (orElse g' invoke' o)) := by
  induction brs with
  | nil =>
    cases o with
    | none => exact agrees_last hlast
    | some b => exact h' b rfl ho
  | cons br brs ih =>
    obtain ⟨e, b⟩ := br
    rw [Branch.itemsAll, mention_append_iff, mention_append_iff] at hbrs
    obtain ⟨he, hb, hbrs⟩ := hbrs
    rw [branches_cons, branches_cons]
    refine (agrees_expr hg hi he).bind fun v => ?_
    cases v.truth with
    | true => exact h _ (List.mem_cons_self ..) hb
    | false => exact ih hbrs fun br' hbr' => h br' (List.mem_cons_of_mem _ hbr')

omit hg hi in
theorem agrees_stmts {ss : List Stmt} (hss : Mention S (Stmt.itemsAll ss))
    (h : ∀ s ∈ ss, Mention S s.items → Agrees S (stmt g invoke s) (stmt g' invoke' s)) :
    Agrees S (stmts g invoke ss) (stmts g' invoke' ss) := by
  induction ss with
  | nil => exact agrees_last hlast
  | cons s ss ih =>
    rw [Stmt.itemsAll, mention_append_iff] at hss
    rw [stmts_cons, stmts_cons]
    refine (h s (List.mem_cons_self ..) hss.1).bind fun v => (agrees_setLast v).bind fun _ => ?_
    exact ih hss.2 fun s' hs' => h s' (List.mem_cons_of_mem s hs')

theorem agrees_cases :
    Stmt.Cases (fun s => Mention S s.items → Agrees S (stmt g invoke s) (stmt g' invoke' s))
      (fun b => Mention S b.items → Agrees S (body g invoke b) (body g' invoke' b)) where
  line e span := by
    intro hs
    rw [Stmt.items, mention_cons_iff] at hs
    exact (agrees_record _).bind fun _ => agrees_expr hg hi hs.2
  block b span hb := by
    intro hs
    rw [Stmt.items, mention_cons_iff] at hs
    exact (agrees_record _).bind fun _ => hb hs.2
  cond brs o span hbrs ho := by
    intro hs
    rw [Stmt.items, mention_cons_iff, mention_append_iff] at hs
    exact (agrees_record _).bind fun _ => agrees_branches hg hi hlast hs.2.1 hs.2.2 hbrs ho
  body ss span hss := by
    intro hb
    rw [Body.items, mention_cons_iff] at hb
    exact agrees_stmts hlast hb.2 hss

/-- **Bodies do the same** where the names that they mention mean the same. -/
theorem agrees_body {b : Body} (hb : Mention S b.items) :
    Agrees S (body g invoke b) (body g' invoke' b) :=
  (agrees_cases hg hi hlast).body' b hb

end Eval

/-! ### Functions -/

/-- **Functions of the program do the same** at every depth of calls, where the names that the program
mentions mean the same. -/
theorem agrees_invoke {g g' : Globals} (hg : g.AgreeOn S g') (hlast : S Locals.lastName)
    (hfuns : ∀ f ∈ g.funs, Mention S f.body.items) (d : Nat) :
    Invoke.Agrees g (invoke g d) (invoke g' d) := by
  induction d with
  | zero =>
    intro f hf args m
    rfl
  | succ d ih =>
    intro f hf args m
    exact (Eval.agrees_body hg ih hlast (hfuns f hf)).answer (fun _ _ => rfl) m

end Offside
