import Mathlib.Tactic.ByContra
import Offside.Sample
import Offside.Proofs.Run.Points

/-!
# The predefined names stay what they are

Loading a program refuses predefined names and names that are used twice.  During a run, a variable
comes into being as a parameter, by an assignment or as the last produced value, and none of these
ever hides a predefined name or, parameters apart, a function of the program.

* what loading guarantees: `Globals.Proper`, `Globals.proper_of_load`;
* what holds of the variables of a call: `Locals.Proper`, kept by every step (`Next.proper`) and by
  every piece of code that runs to its end (`Code.keeps_proper`);
* **at every moment of every run names mean what they should**: `standard_names_fixed`.
-/

namespace Offside

variable {g : Globals}

/-! ### Loaded programs -/

/-- What loading guarantees of the functions of a program. -/
structure Globals.Proper (g : Globals) : Prop where
  /-- No name is used twice. -/
  distinct : (g.funs.map (·.name.name)).Nodup
  name : ∀ f ∈ g.funs, isReserved f.name.name = false
  params : ∀ f ∈ g.funs, ∀ x ∈ f.params, isReserved x.name = false

theorem Globals.find?_eq_none_iff {x : String} :
    g.find? x = none ↔ x ∉ g.funs.map (·.name.name) := by
  unfold Globals.find?
  rw [List.find?_eq_none]
  simp

/-- A function that gives no offence can be added. -/
theorem Globals.Proper.add {f : FunDef} (hg : g.Proper) (h : g.offence? f = none) :
    Globals.Proper ⟨g.funs ++ [f]⟩ := by
  unfold Globals.offence? at h
  split at h
  · cases h
  · next hname =>
    rw [Bool.or_eq_true, not_or, Bool.not_eq_true, Bool.not_eq_true, Option.isSome_eq_false_iff,
      Option.isNone_iff_eq_none, Globals.find?_eq_none_iff] at hname
    obtain ⟨hreserved, hnew⟩ := hname
    rw [List.find?_eq_none] at h
    refine ⟨?_, ?_, ?_⟩
    · rw [List.map_append, List.nodup_append]
      refine ⟨hg.distinct, by simp, ?_⟩
      intro x hx y hy heq
      rw [List.map_singleton, List.mem_singleton] at hy
      exact hnew (hy ▸ heq ▸ hx)
    · intro f' hf'
      rcases List.mem_append.mp hf' with hf' | hf'
      · exact hg.name f' hf'
      · rw [List.mem_singleton.mp hf']
        exact hreserved
    · intro f' hf' x hx
      rcases List.mem_append.mp hf' with hf' | hf'
      · exact hg.params f' hf' x hx
      · rw [List.mem_singleton.mp hf'] at hx
        exact Bool.not_eq_true _ ▸ h x hx

theorem Globals.Proper.extend {g' : Globals} {fs : List FunDef} (hg : g.Proper)
    (h : g.extend fs = (g', none)) : g'.Proper ∧ g'.funs = g.funs ++ fs := by
  induction fs generalizing g with
  | nil =>
    cases h
    exact ⟨hg, by simp⟩
  | cons f fs ih =>
    unfold Globals.extend at h
    split at h
    · cases h
    · next hoffence =>
      obtain ⟨hg', hfuns⟩ := ih (hg.add hoffence) h
      exact ⟨hg', by rw [hfuns, List.append_assoc, List.singleton_append]⟩

/-- **A program that loads** has proper functions, and all of them are loaded. -/
theorem Globals.proper_of_load {p : Program} (h : Globals.load p = .ok g) :
    g.Proper ∧ g.funs = p.funs := by
  unfold Globals.load at h
  split at h
  · next g' hextend =>
    cases h
    have hempty : Globals.Proper {} := ⟨by simp, by simp, by simp⟩
    obtain ⟨hg, hfuns⟩ := hempty.extend hextend
    exact ⟨hg, by rw [hfuns]; rfl⟩
  · cases h

/-- The name of a function means that function. -/
theorem Globals.Proper.find?_eq {f : FunDef} (hg : g.Proper) (hf : f ∈ g.funs) :
    g.find? f.name.name = some f := by
  unfold Globals.find?
  rw [List.find?_eq_some_iff_append]
  obtain ⟨a, b, hab⟩ := List.append_of_mem hf
  refine ⟨by simp, a, b, hab, ?_⟩
  intro f' hf'
  have hdistinct := hg.distinct
  rw [hab, List.map_append, List.map_cons, List.nodup_append] at hdistinct
  have hne : f'.name.name ≠ f.name.name :=
    hdistinct.2.2 _ (List.mem_map_of_mem hf') _ (List.mem_cons_self ..)
  simpa using hne

theorem named?_eq_none_of_not_reserved {x : String} (h : isReserved x = false) :
    Builtin.named? x = none ∧ predefined? x = none := by
  simpa [isReserved] using h

theorem Globals.Proper.get?_eq {f : FunDef} (hg : g.Proper) (hf : f ∈ g.funs) :
    g.get? f.name.name = some (.function (.user f)) := by
  obtain ⟨hbuiltin, hvalue⟩ := named?_eq_none_of_not_reserved (hg.name f hf)
  unfold Globals.get?
  rw [hbuiltin, hvalue, hg.find?_eq hf]
  rfl

/-! ### Variables -/

/-- What holds of the variables in a call of a function. -/
structure Locals.Proper (g : Globals) (f : FunDef) (ls : Locals) : Prop where
  last : ∃ v, ls.get? "_" = some v
  reserved : ∀ x, isReserved x = true → x ≠ "_" → ls.get? x = none
  functions : ∀ h ∈ g.funs, ls.get? h.name.name ≠ none → h.name.name ∈ f.params.map (·.name)

theorem Locals.get?_insert (ls : Locals) (x y : String) (v : Value) :
    (ls.insert x v).get? y = if y = x then some v else ls.get? y := by
  by_cases h : y = x
  · rw [if_pos h, h, Locals.get?_insert_self]
  · rw [if_neg h, Locals.get?_insert_of_ne ls v h]

theorem Locals.get?_insertAll_eq_none_iff {ls : Locals} {bs : List (String × Value)} {x : String} :
    (ls.insertAll bs).get? x = none ↔ ls.get? x = none ∧ x ∉ bs.map Prod.fst := by
  unfold Locals.insertAll
  induction bs generalizing ls with
  | nil => simp
  | cons b bs ih =>
    obtain ⟨y, v⟩ := b
    rw [List.foldl_cons, ih, Locals.get?_insert, List.map_cons, List.mem_cons, not_or]
    by_cases hx : x = y
    · simp [hx]
    · simp [hx]

theorem isReserved_last : isReserved "_" = true := by decide

/-- The variables at the start of a call. -/
theorem Locals.proper_fresh {f : FunDef} (hg : g.Proper) (hf : f ∈ g.funs) (args : List Value) :
    Locals.Proper g f (.fresh f.params args) := by
  have hbound : ∀ x, (Locals.fresh f.params args).get? x ≠ none →
      x = "_" ∨ x ∈ f.params.map (·.name) := by
    intro x hx
    by_contra hnot
    rw [not_or] at hnot
    refine hx (Locals.get?_insertAll_eq_none_iff.mpr ⟨?_, fun hmem => hnot.2 ?_⟩)
    · simp [Locals.get?, Locals.lastName, Ne.symm hnot.1]
    · obtain ⟨⟨y, v⟩, hzip, rfl⟩ := List.mem_map.mp hmem
      exact (List.of_mem_zip hzip).1
  refine ⟨?_, ?_, ?_⟩
  · rw [← Option.isSome_iff_exists, ← Option.ne_none_iff_isSome]
    intro hnone
    have hlast := (Locals.get?_insertAll_eq_none_iff.mp hnone).1
    simp [Locals.get?, Locals.lastName] at hlast
  · intro x hx hne
    by_contra hsome
    rcases hbound x hsome with rfl | hmem
    · exact hne rfl
    · obtain ⟨y, hy, rfl⟩ := List.mem_map.mp hmem
      rw [hg.params f hf y hy] at hx
      cases hx
  · intro h hh hsome
    rcases hbound _ hsome with heq | hmem
    · have hreserved := hg.name h hh
      rw [heq, isReserved_last] at hreserved
      cases hreserved
    · exact hmem

/-- An assignment goes through only where no predefined name and no function would be hidden. -/
theorem Locals.Proper.assign {f : FunDef} {ls ls' : Locals} {x : Ident} {v : Value}
    (hg : g.Proper) (h : Locals.Proper g f ls) (hset : Scope.assign ⟨g, ls⟩ x v = .ok ls') :
    Locals.Proper g f ls' := by
  unfold Scope.assign at hset
  split at hset
  · cases hset
  · next hprotected =>
    cases hset
    rw [Scope.isProtected, Bool.or_eq_true, not_or, Bool.not_eq_true] at hprotected
    obtain ⟨hreserved, hhidden⟩ := hprotected
    refine ⟨?_, ?_, ?_⟩
    · rw [Locals.get?_insert]
      split
      · exact ⟨v, rfl⟩
      · exact h.last
    · intro y hy hne
      rw [Locals.get?_insert, if_neg, h.reserved y hy hne]
      rintro rfl
      rw [hreserved] at hy
      cases hy
    · intro h' hh hsome
      rw [Locals.get?_insert] at hsome
      split at hsome
      · next heq =>
        refine h.functions h' hh fun hnone => hhidden ?_
        rw [← heq, Bool.and_eq_true, Option.isNone_iff_eq_none]
        refine ⟨?_, hnone⟩
        unfold Globals.isFunction
        rw [hg.get?_eq hh]
      · exact h.functions h' hh hsome

/-- Recording the last produced value. -/
theorem Locals.Proper.setLast {f : FunDef} {ls : Locals} (hg : g.Proper)
    (h : Locals.Proper g f ls) (v : Value) : Locals.Proper g f (ls.setLast v) := by
  unfold Locals.setLast Locals.lastName
  refine ⟨⟨v, Locals.get?_insert_self ls _ v⟩, ?_, ?_⟩
  · intro x hx hne
    rw [Locals.get?_insert_of_ne ls v hne, h.reserved x hx hne]
  · intro h' hh hsome
    have hne : h'.name.name ≠ "_" := by
      intro heq
      have hreserved := hg.name h' hh
      rw [heq, isReserved_last] at hreserved
      cases hreserved
    rw [Locals.get?_insert_of_ne ls v hne] at hsome
    exact h.functions h' hh hsome

/-! ### Runs -/

/-- Code that runs to its end keeps the variables proper. -/
theorem Code.keeps_proper (hg : g.Proper) (f : FunDef) (invoke : Invoke) (c : Code) :
    Keeps (Locals.Proper g f) g invoke c :=
  c.keeps (fun h hset => h.assign hg hset) fun v h => h.setLast hg v

/-- **Every step keeps the variables proper**, those of a new call included. -/
theorem Next.proper {p q : Point} (hg : g.Proper) (h : Next g p q)
    (hp : p.locals.Proper g p.function) : q.locals.Proper g q.function := by
  cases h with
  | call hf hes harity =>
    exact Locals.proper_fresh hg (Globals.get?_eq_user (Scope.callee_eq_ok hf)).1 _
  | nextExprs he =>
    exact Code.keeps_proper hg _ _ (.expr _) (Step.void_eq_done_iff.mpr ⟨_, he⟩) hp
  | chosen he hv =>
    exact Code.keeps_proper hg _ _ (.expr _) (Step.void_eq_done_iff.mpr ⟨_, he⟩) hp
  | skipped he hv =>
    exact Code.keeps_proper hg _ _ (.expr _) (Step.void_eq_done_iff.mpr ⟨_, he⟩) hp
  | nextStmts hs =>
    have hls := Code.keeps_proper hg _ _ (.stmt _) (Step.void_eq_done_iff.mpr ⟨_, hs⟩) hp
    exact hls.setLast hg _
  | args | value | firstExpr | line | block | cond | test | otherwise | body | firstStmt => exact hp

/-- The variables at some moment in a call of the function `f`: those that a piece of code finds, or
those that it leaves, in a run that starts with any function of the program on any arguments. -/
def Observed (g : Globals) (f : FunDef) (ls : Locals) : Prop :=
  ∃ f₀ ∈ g.funs, ∃ d args m p, f₀.arity = args.length ∧ Reaches g (.start f₀ d args m) p ∧
    p.function = f ∧ (p.locals = ls ∨ ∃ m', p.run g = .done () ls m')

theorem Observed.proper {f : FunDef} {ls : Locals} (hg : g.Proper) (h : Observed g f ls) :
    ls.Proper g f := by
  obtain ⟨f₀, hf₀, d, args, m, p, -, hreach, rfl, hls⟩ := h
  have hp : p.locals.Proper g p.function :=
    hreach.invariant (fun hnext => hnext.proper hg) (Locals.proper_fresh hg hf₀ args)
  rcases hls with rfl | ⟨m', hrun⟩
  · exact hp
  · exact Code.keeps_proper hg _ _ _ hrun hp

/-- Every predefined function is found under its name. -/
theorem Builtin.named?_name (b : Builtin) : Builtin.named? b.name = some b := by
  rcases b with _ | _ | op | _ | _ | op
  · rfl
  · rfl
  · cases op <;> rfl
  · rfl
  · rfl
  · cases op <;> rfl

theorem Builtin.isReserved_name (b : Builtin) : isReserved b.name = true ∧ b.name ≠ "_" := by
  rcases b with _ | _ | op | _ | _ | op
  · decide
  · decide
  · cases op <;> decide
  · decide
  · decide
  · cases op <;> decide

/-- A name without a variable means what it means among the globals. -/
theorem Scope.get?_of_none {ls : Locals} {x : String} (h : ls.get? x = none) :
    Scope.get? ⟨g, ls⟩ x = g.get? x := by
  unfold Scope.get?
  rw [h]

/-- **The predefined names stay what they are.**  At every moment of every run of a program that
loads, `_` is a variable, no other predefined name is one, and one with the name of a function is a
parameter.  Predefined functions and truth values are therefore found under their names, and so are
the functions of the program, parameters apart. -/
theorem standard_names_fixed {p : Program} (hload : Globals.load p = .ok g) {f : FunDef}
    {ls : Locals} (h : Observed g f ls) :
    (∃ v, ls.get? "_" = some v) ∧
    (∀ x, isReserved x = true → x ≠ "_" → ls.get? x = none) ∧
    (∀ h ∈ p.funs, ls.get? h.name.name ≠ none → h.name.name ∈ f.params.map (·.name)) ∧
    (∀ b : Builtin, Scope.get? ⟨g, ls⟩ b.name = some (.function (.builtin b))) ∧
    Scope.get? ⟨g, ls⟩ "true" = some (.value (.bool true)) ∧
    Scope.get? ⟨g, ls⟩ "false" = some (.value (.bool false)) ∧
    (∀ h ∈ p.funs, h.name.name ∉ f.params.map (·.name) →
      Scope.get? ⟨g, ls⟩ h.name.name = some (.function (.user h))) := by
  obtain ⟨hg, hfuns⟩ := Globals.proper_of_load hload
  have hls := h.proper hg
  rw [← hfuns]
  refine ⟨hls.last, hls.reserved, hls.functions, ?_, ?_, ?_, ?_⟩
  · intro b
    rw [Scope.get?_of_none (hls.reserved _ b.isReserved_name.1 b.isReserved_name.2)]
    unfold Globals.get?
    rw [b.named?_name]
  · rw [Scope.get?_of_none (hls.reserved "true" (by decide) (by decide))]
    rfl
  · rw [Scope.get?_of_none (hls.reserved "false" (by decide) (by decide))]
    rfl
  · intro h' hh hparam
    have hnone : ls.get? h'.name.name = none := by
      by_contra hsome
      exact hparam (hls.functions h' hh hsome)
    rw [Scope.get?_of_none hnone, hg.get?_eq hh]

/-- `main` of `Sample.doubleCall` calls `f` with 21. -/
theorem standard_names_fixed_doubleCall :
    Scope.get? ⟨⟨Sample.doubleCall.funs⟩, [("_", .int 21), ("x", .int 21)]⟩ "mul" =
      some (.function (.builtin (.arith .mul))) := by
  have hreach : ∃ m, Reaches ⟨Sample.doubleCall.funs⟩
      (.start (Sample.mainOf [Sample.print [.apply "f" [.ofInt 21]]]) 1 [] {})
      (.start (.ofStmts "f" ["x"] [.ofExpr (.apply "mul" [.var "x", .ofInt 2])]) 0 [.int 21] m) := by
    apply Exists.intro
    refine .head .body (.head .firstStmt (.head .line ?_))
    refine .head (.args (h := .builtin .print) rfl) (.head .firstExpr ?_)
    exact .single (.call rfl rfl rfl)
  obtain ⟨m, hreach⟩ := hreach
  exact (standard_names_fixed (p := Sample.doubleCall) rfl
    ⟨_, List.mem_cons_self .., 1, [], {}, _, rfl, hreach, rfl, Or.inl rfl⟩).2.2.2.1 (.arith .mul)

end Offside
