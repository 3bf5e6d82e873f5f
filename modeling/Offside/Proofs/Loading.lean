import Offside.Proofs.Run.Depth
import Offside.Proofs.Run.Mentions
import Offside.Proofs.Run.Origin

/-!
# Loading

Which programs load, what their names mean then, and what is reported of the others.  Functions are
registered one by one, so that what is reported is the first name in source order that is taken.  For
a program that loads, neither the order of its functions has a say nor a further function that nothing
mentions.

* which programs load: `Program.Loadable`, `Globals.load_eq_ok_iff`;
* what is reported of the others: `Program.FirstOffence`, `Globals.load_eq_error_iff`;
* programs in which the names that matter mean the same come to the same:
  `Program.runs_iff_of_agree`;
* **loading is determined, and the order of functions has no say**: `Program.load_determined`;
* **a function that nothing mentions can be added**: `Program.runs_insert_unmentioned`.
-/

namespace Offside

/-! ### The predefined names -/

/-- The names that every program knows. -/
def standardNames : List String :=
  Builtin.all.map Builtin.name ++ ["true", "false", "_"]

theorem Builtin.isSome_named?_iff {x : String} :
    (Builtin.named? x).isSome = true ↔ x ∈ Builtin.all.map Builtin.name := by
  simp [Builtin.named?]

theorem isSome_predefined?_iff {x : String} :
    (predefined? x).isSome = true ↔ x ∈ ["true", "false", "_"] := by
  unfold predefined?
  split
  · next h => simp [h]
  · next htrue =>
    split
    · next h => simp [h]
    · next hfalse => simp [htrue, hfalse]

theorem isReserved_iff {x : String} : isReserved x = true ↔ x ∈ standardNames := by
  rw [isReserved, Bool.or_eq_true, Builtin.isSome_named?_iff, isSome_predefined?_iff, standardNames,
    List.mem_append]

theorem isReserved_eq_false_iff {x : String} : isReserved x = false ↔ x ∉ standardNames := by
  rw [← isReserved_iff, Bool.not_eq_true]

/-! ### Which programs load -/

/-- **The programs that load:** no function has the name of another one, and neither functions nor
parameters have predefined names. -/
structure Program.Loadable (p : Program) : Prop where
  distinct : (p.funs.map (·.name.name)).Nodup
  name : ∀ f ∈ p.funs, f.name.name ∉ standardNames
  params : ∀ f ∈ p.funs, ∀ x ∈ f.params, x.name ∉ standardNames

theorem Program.proper_iff {p : Program} : Globals.Proper ⟨p.funs⟩ ↔ p.Loadable := by
  constructor
  · intro h
    exact ⟨h.distinct, fun f hf => isReserved_eq_false_iff.mp (h.name f hf),
      fun f hf x hx => isReserved_eq_false_iff.mp (h.params f hf x hx)⟩
  · intro h
    exact ⟨h.distinct, fun f hf => isReserved_eq_false_iff.mpr (h.name f hf),
      fun f hf x hx => isReserved_eq_false_iff.mpr (h.params f hf x hx)⟩

/-- A name of the definition `f` that is taken, where functions with the names `taken` stand before
it.  Only if its own name is free do its parameters matter, and of these only the first. -/
inductive FunDef.Offence (taken : List String) (f : FunDef) : Ident → Prop
  | name : f.name.name ∈ standardNames ∨ f.name.name ∈ taken → Offence taken f f.name
  | param {x : Ident} {ps qs : List Ident} : f.name.name ∉ standardNames → f.name.name ∉ taken →
      f.params = ps ++ x :: qs → (∀ y ∈ ps, y.name ∉ standardNames) → x.name ∈ standardNames →
      Offence taken f x

/-- **The first name of a program that is taken:** the functions before that definition would load. -/
def Program.FirstOffence (p : Program) (x : Ident) : Prop :=
  ∃ fs f gs, p.funs = fs ++ f :: gs ∧ Program.Loadable ⟨fs, .initial⟩ ∧
    f.Offence (fs.map (·.name.name)) x

namespace Globals

variable {g : Globals} {f : FunDef} {x : Ident}

/-- Is the name of the definition taken? -/
theorem taken_iff :
    (isReserved f.name.name || (g.find? f.name.name).isSome) = true ↔
      f.name.name ∈ standardNames ∨ f.name.name ∈ g.funs.map (·.name.name) := by
  rw [Bool.or_eq_true, isReserved_iff, ← Option.ne_none_iff_isSome, ne_eq, find?_eq_none_iff,
    Classical.not_not]

theorem offence?_eq_some_iff :
    g.offence? f = some x ↔ f.Offence (g.funs.map (·.name.name)) x := by
  unfold offence?
  split
  · next htaken =>
    rw [taken_iff] at htaken
    constructor
    · intro h
      cases h
      exact .name htaken
    · intro h
      cases h with
      | name => rfl
      | param hstandard hnew => exact absurd htaken (not_or.mpr ⟨hstandard, hnew⟩)
  · next htaken =>
    rw [taken_iff] at htaken
    rw [List.find?_eq_some_iff_append]
    constructor
    · rintro ⟨hx, ps, qs, hparams, hps⟩
      obtain ⟨hstandard, hnew⟩ := not_or.mp htaken
      refine .param hstandard hnew hparams (fun y hy => ?_) (isReserved_iff.mp hx)
      exact isReserved_eq_false_iff.mp (by simpa using hps y hy)
    · intro h
      cases h with
      | name hname => exact absurd hname htaken
      | @param x ps qs _ _ hparams hps hx =>
        refine ⟨isReserved_iff.mpr hx, ps, qs, hparams, fun y hy => ?_⟩
        simpa using isReserved_eq_false_iff.mpr (hps y hy)

/-- A definition of a proper program gives no offence. -/
theorem Proper.offence?_eq_none {fs gs : List FunDef} (h : Proper ⟨fs ++ f :: gs⟩) :
    offence? ⟨fs⟩ f = none := by
  have hf : f ∈ fs ++ f :: gs := by simp
  have hdistinct : f.name.name ∉ fs.map (·.name.name) := by
    have hnodup := h.distinct
    rw [List.map_append, List.map_cons, List.nodup_append] at hnodup
    exact fun hmem => hnodup.2.2 _ hmem _ (List.mem_cons_self ..) rfl
  rw [Option.eq_none_iff_forall_ne_some]
  intro x hx
  cases offence?_eq_some_iff.mp hx with
  | name hname =>
    rcases hname with hname | hname
    · exact isReserved_eq_false_iff.mp (h.name f hf) hname
    · exact hdistinct hname
  | @param x ps qs _ _ hparams _ hx =>
    have hmem : x ∈ f.params := by simp [hparams]
    exact isReserved_eq_false_iff.mp (h.params f hf x hmem) hx

/-- **What registering functions comes to:** all of them are registered, or those before the first
definition that gives an offence, which is reported. -/
theorem Proper.extend_cases (hg : g.Proper) (fs : List FunDef) :
    (g.extend fs = (⟨g.funs ++ fs⟩, none) ∧ Proper ⟨g.funs ++ fs⟩) ∨
    ∃ as f bs x, fs = as ++ f :: bs ∧ Proper ⟨g.funs ++ as⟩ ∧
      offence? ⟨g.funs ++ as⟩ f = some x ∧
      g.extend fs = (⟨g.funs ++ as⟩, some ⟨.reserved x.name, some x.span⟩) := by
  induction fs generalizing g with
  | nil =>
    rw [List.append_nil]
    exact Or.inl ⟨rfl, hg⟩
  | cons f fs ih =>
    rw [Globals.extend]
    cases hoffence : g.offence? f with
    | some x =>
      refine Or.inr ⟨[], f, fs, x, rfl, ?_⟩
      rw [List.append_nil]
      exact ⟨hg, hoffence, rfl⟩
    | none =>
      have hadd : ∀ gs, (g.funs ++ [f]) ++ gs = g.funs ++ f :: gs := by simp
      rcases ih (hg.add hoffence) with hall | ⟨as, f', bs, x, rfl, hrest⟩
      · rw [hadd] at hall
        exact Or.inl hall
      · rw [hadd] at hrest
        exact Or.inr ⟨f :: as, f', bs, x, rfl, hrest⟩

theorem proper_empty : Proper {} :=
  ⟨by simp, by simp, by simp⟩

/-- The functions of a program that loads are all registered. -/
theorem extend_of_loadable {p : Program} (h : p.Loadable) :
    extend {} p.funs = (⟨p.funs⟩, none) := by
  have hproper : Proper ⟨p.funs⟩ := Program.proper_iff.mpr h
  rcases proper_empty.extend_cases p.funs with ⟨hextend, -⟩ | ⟨as, f, bs, x, hfuns, -, hx, -⟩
  · exact hextend
  · rw [hfuns] at hproper
    have hnone : offence? ⟨as⟩ f = none := hproper.offence?_eq_none
    exact absurd (hx.symm.trans hnone) (by simp)

/-- **When a program loads**, and what the globals are then. -/
theorem load_eq_ok_iff {p : Program} : load p = .ok g ↔ p.Loadable ∧ g = ⟨p.funs⟩ := by
  constructor
  · intro h
    obtain ⟨hg, hfuns⟩ := proper_of_load h
    obtain ⟨fs⟩ := g
    cases hfuns
    exact ⟨Program.proper_iff.mp hg, rfl⟩
  · rintro ⟨hload, rfl⟩
    unfold load
    rw [extend_of_loadable hload]

theorem extend_append {g' : Globals} {fs : List FunDef} (h : g.extend fs = (g', none))
    (gs : List FunDef) : g.extend (fs ++ gs) = g'.extend gs := by
  induction fs generalizing g with
  | nil =>
    cases h
    rfl
  | cons f fs ih =>
    rw [extend] at h
    rw [List.cons_append, extend]
    cases hoffence : g.offence? f with
    | some x =>
      rw [hoffence] at h
      cases h
    | none =>
      rw [hoffence] at h
      exact ih h

/-- **What is reported of a program that does not load.** -/
theorem load_eq_error_iff {p : Program} {failure : Failure} :
    load p = .error failure ↔
      ∃ x, p.FirstOffence x ∧ failure = ⟨.reserved x.name, some x.span⟩ := by
  unfold load
  constructor
  · intro h
    rcases proper_empty.extend_cases p.funs with ⟨hextend, -⟩ | ⟨as, f, bs, x, hfuns, has, hx, hextend⟩
    · rw [hextend] at h
      cases h
    · rw [hextend] at h
      cases h
      exact ⟨x, ⟨as, f, bs, hfuns, Program.proper_iff.mp has, offence?_eq_some_iff.mp hx⟩, rfl⟩
  · rintro ⟨x, ⟨as, f, bs, hfuns, has, hx⟩, rfl⟩
    have hoffence : offence? ⟨as⟩ f = some x := offence?_eq_some_iff.mpr hx
    rw [hfuns, extend_append (extend_of_loadable has), extend, hoffence]
    rfl

/-! ### What names mean -/

/-- The function of a name that is found in the program is the only one of that name. -/
theorem Proper.find?_eq_some_iff {x : String} (hg : g.Proper) :
    g.find? x = some f ↔ f ∈ g.funs ∧ f.name.name = x := by
  constructor
  · intro h
    exact ⟨List.mem_of_find?_eq_some h, by simpa using List.find?_some h⟩
  · rintro ⟨hf, rfl⟩
    exact hg.find?_eq hf

theorem get?_of_not_standard {x : String} (h : x ∉ standardNames) :
    g.get? x = (g.find? x).map fun f => .function (.user f) := by
  obtain ⟨hbuiltin, hvalue⟩ :=
    named?_eq_none_of_not_reserved (isReserved_eq_false_iff.mpr h)
  unfold get?
  rw [hbuiltin, hvalue]

/-- The names that mean something. -/
theorem isSome_get?_iff {x : String} :
    (g.get? x).isSome = true ↔ x ∈ standardNames ∨ x ∈ g.funs.map (·.name.name) := by
  by_cases hx : x ∈ standardNames
  · have hreserved := isReserved_iff.mpr hx
    rw [isReserved, Bool.or_eq_true] at hreserved
    unfold get?
    cases hbuiltin : Builtin.named? x with
    | some b => simp [hx]
    | none =>
      rw [hbuiltin] at hreserved
      cases hvalue : predefined? x with
      | some v => simp [hx]
      | none => simp [hvalue] at hreserved
  · rw [get?_of_not_standard hx, Option.isSome_map, ← Option.ne_none_iff_isSome, ne_eq,
      find?_eq_none_iff, Classical.not_not]
    simp [hx]

/-- In another order the same names have the same functions. -/
theorem get?_of_perm {g' : Globals} (hg : g.Proper) (hg' : g'.Proper)
    (h : g'.funs.Perm g.funs) (x : String) : g'.get? x = g.get? x := by
  have hfind : g'.find? x = g.find? x := by
    apply Option.ext
    intro f
    rw [hg.find?_eq_some_iff, hg'.find?_eq_some_iff, h.mem_iff]
  unfold get?
  rw [hfind]

end Globals

/-! ### Runs of loaded programs -/

namespace Program

variable {p q : Program}

/-- The machine after the functions of a program have been registered. -/
def registered (p : Program) (m : Machine) : Machine :=
  p.funs.foldl (fun m f => m.record (.defining f.name.name f.arity)) m

/-- Without a log, registering functions leaves no trace. -/
@[simp] theorem registered_console (p : Program) (c : Console) :
    p.registered { console := c } = { console := c } := by
  unfold registered
  induction p.funs with
  | nil => rfl
  | cons f fs ih => exact ih

/-- A program that loads calls `main` at once. -/
theorem interpret_of_loadable (h : p.Loadable) (d : Nat) (m : Machine) :
    p.interpret d m = (Globals.callMain ⟨p.funs⟩ d (p.registered m)).flush := by
  unfold interpret
  rw [Globals.extend_of_loadable h]
  rfl

/-- **Programs that load come to the same** where `main` and the names that the first mentions mean
the same. -/
theorem runs_iff_of_agree {S : String → Prop} (hp : p.Loadable) (hq : q.Loadable)
    (hg : Globals.AgreeOn S ⟨p.funs⟩ ⟨q.funs⟩) (hmain : S "main") (hlast : S Locals.lastName)
    (hmentions : ∀ x ∈ p.mentions, S x) (c : Console) (r : Except Stop Value) (c' : Console) :
    q.Runs c r c' ↔ p.Runs c r c' := by
  have hfuns : ∀ f ∈ p.funs, Mention S f.body.items := by
    intro f hf i hi
    exact mention_flatMap_iff.mpr hmentions i (FunDef.mem_items_of_body hf hi)
  have hcall : ∀ d m, Globals.callMain ⟨q.funs⟩ d m = Globals.callMain ⟨p.funs⟩ d m := by
    intro d m
    unfold Globals.callMain Globals.call
    rw [hg "main" hmain]
    rcases hget : Globals.get? ⟨p.funs⟩ "main" with _ | v | f
    · rfl
    · rfl
    · exact congrFun (Function.apply_agree (agrees_invoke hg hlast hfuns d) hget []) m
  unfold Runs
  simp only [interpret_of_loadable hp, interpret_of_loadable hq, registered_console, hcall]

theorem Loadable.perm (h : p.Loadable) (hperm : q.funs.Perm p.funs) : q.Loadable where
  distinct := ((hperm.map _).nodup_iff).mpr h.distinct
  name f hf := h.name f (hperm.mem_iff.mp hf)
  params f hf := h.params f (hperm.mem_iff.mp hf)

/-- **Loading is determined, and the order of functions has no say.**  A program loads if and only if
its functions have different names and neither they nor their parameters have predefined ones.  Then
the predefined names and those of its functions mean something, and a name that is not predefined
means the function of that name.  Otherwise the first name that is taken is reported with its place.
A program that loads comes to the same with its functions in any other order. -/
theorem load_determined (p : Program) :
    ((∃ g, Globals.load p = .ok g) ↔ p.Loadable) ∧
    (∀ g, Globals.load p = .ok g →
      (∀ x, (g.get? x).isSome = true ↔ x ∈ standardNames ∨ x ∈ p.funs.map (·.name.name)) ∧
      ∀ x, x ∉ standardNames → g.get? x = (p.get? x).map fun f => .function (.user f)) ∧
    (∀ failure, Globals.load p = .error failure ↔
      ∃ x, p.FirstOffence x ∧ failure = ⟨.reserved x.name, some x.span⟩) ∧
    (p.Loadable → ∀ q : Program, q.funs.Perm p.funs → q.Loadable ∧
      ∀ (c : Console) (r : Except Stop Value) (c' : Console), q.Runs c r c' ↔ p.Runs c r c') := by
  refine ⟨?_, ?_, fun failure => Globals.load_eq_error_iff, ?_⟩
  · simp [Globals.load_eq_ok_iff]
  · intro g hg
    obtain ⟨-, rfl⟩ := Globals.load_eq_ok_iff.mp hg
    exact ⟨fun x => Globals.isSome_get?_iff, fun x hx => Globals.get?_of_not_standard hx⟩
  · intro hp q hperm
    have hq := hp.perm hperm
    refine ⟨hq, runs_iff_of_agree (S := fun _ => True) hp hq (fun x _ => ?_) trivial trivial
      fun _ _ => trivial⟩
    exact Globals.get?_of_perm (proper_iff.mpr hp) (proper_iff.mpr hq) hperm x

/-- `Sample.doubleCall` can be written with `main` last.  With a second `main` that has a predefined
parameter it does not load, and what is reported is the name `main`. -/
theorem load_determined_doubleCall :
    Program.Runs ⟨Sample.doubleCall.funs.reverse, .initial⟩ {} (.ok (.int 42))
      ⟨[], { written := #[52, 50, 10] }⟩ ∧
    Globals.load ⟨Sample.doubleCall.funs ++ [.ofStmts "main" ["input"] []], .initial⟩ =
      .error ⟨.reserved "main", some .initial⟩ := by
  have hload : Sample.doubleCall.Loadable := (load_determined Sample.doubleCall).1.mp ⟨_, rfl⟩
  have hruns : Sample.doubleCall.Runs {} (.ok (.int 42)) ⟨[], { written := #[52, 50, 10] }⟩ :=
    runs_ok (d := 2) (by decide +kernel) (by decide +kernel)
  refine ⟨?_, ?_⟩
  · have hperm := (load_determined Sample.doubleCall).2.2.2 hload
      ⟨Sample.doubleCall.funs.reverse, .initial⟩ (List.reverse_perm _)
    exact (hperm.2 _ _ _).mpr hruns
  · refine ((load_determined _).2.2.1 _).mpr ⟨⟨"main", .initial⟩, ?_, rfl⟩
    exact ⟨Sample.doubleCall.funs, _, [], rfl, hload, .name (Or.inr (by decide))⟩

end Program

/-! ### Functions that nothing mentions -/

/-- A further function is found under its own name only. -/
theorem Globals.agreeOn_insert (f : FunDef) (fs gs : List FunDef) :
    Globals.AgreeOn (· ≠ f.name.name) ⟨fs ++ gs⟩ ⟨fs ++ f :: gs⟩ := by
  intro x hx
  have hfind : Globals.find? ⟨fs ++ f :: gs⟩ x = Globals.find? ⟨fs ++ gs⟩ x := by
    unfold Globals.find?
    simp [List.find?_append, Ne.symm hx]
  unfold Globals.get?
  rw [hfind]

namespace Program

variable {p q : Program} {f : FunDef} {fs gs : List FunDef}

theorem Loadable.insert (h : p.Loadable) (hp : p.funs = fs ++ gs) (hq : q.funs = fs ++ f :: gs)
    (hnew : f.name.name ∉ p.funs.map (·.name.name)) (hname : f.name.name ∉ standardNames)
    (hparams : ∀ x ∈ f.params, x.name ∉ standardNames) : q.Loadable := by
  have hcons : Loadable ⟨f :: p.funs, .initial⟩ :=
    ⟨List.nodup_cons.mpr ⟨hnew, h.distinct⟩, List.forall_mem_cons.mpr ⟨hname, h.name⟩,
      List.forall_mem_cons.mpr ⟨hparams, h.params⟩⟩
  refine hcons.perm ?_
  rw [hp, hq]
  exact List.perm_middle

/-- **A function that nothing mentions can be added.**  Where a program loads, a further function with
a new name, which the program nowhere calls, assigns, uses as a value or puts into a placeholder, can
be inserted anywhere: the program still loads, and it comes to the same on every console. -/
theorem runs_insert_unmentioned {g : Globals} (hload : Globals.load p = .ok g)
    (hp : p.funs = fs ++ gs) (hq : q.funs = fs ++ f :: gs) (hmain : f.name.name ≠ "main")
    (hname : f.name.name ∉ standardNames) (hnew : f.name.name ∉ p.funs.map (·.name.name))
    (hunused : f.name.name ∉ p.mentions) (hparams : ∀ x ∈ f.params, x.name ∉ standardNames) :
    (∃ g', Globals.load q = .ok g') ∧
    ∀ (c : Console) (r : Except Stop Value) (c' : Console), q.Runs c r c' ↔ p.Runs c r c' := by
  obtain ⟨hp', -⟩ := Globals.load_eq_ok_iff.mp hload
  have hq' : q.Loadable := hp'.insert hp hq hnew hname hparams
  have hagree : Globals.AgreeOn (· ≠ f.name.name) ⟨p.funs⟩ ⟨q.funs⟩ := by
    rw [hp, hq]
    exact Globals.agreeOn_insert f fs gs
  have hlast : Locals.lastName ∈ standardNames := by decide
  refine ⟨⟨_, Globals.load_eq_ok_iff.mpr ⟨hq', rfl⟩⟩, runs_iff_of_agree hp' hq' hagree ?_ ?_ ?_⟩
  · exact Ne.symm hmain
  · exact fun heq => hname (heq ▸ hlast)
  · exact fun x hx heq => hunused (heq ▸ hx)

/-- `Sample.doubleCall` with a function at its head that would never return and calls `main` too. -/
theorem runs_insert_unmentioned_doubleCall :
    Program.Runs
      ⟨.ofStmts "loop" ["x"] [.ofExpr (.apply "loop" [.apply "main" []])] :: Sample.doubleCall.funs,
        .initial⟩
      {} (.ok (.int 42)) ⟨[], { written := #[52, 50, 10] }⟩ := by
  have hruns : Sample.doubleCall.Runs {} (.ok (.int 42)) ⟨[], { written := #[52, 50, 10] }⟩ :=
    runs_ok (d := 2) (by decide +kernel) (by decide +kernel)
  have hinsert := runs_insert_unmentioned (p := Sample.doubleCall) (q := ⟨_ :: _, .initial⟩)
    (f := .ofStmts "loop" ["x"] [.ofExpr (.apply "loop" [.apply "main" []])]) rfl
    (List.nil_append _).symm rfl (by decide) (by decide) (by decide) (by decide) (by decide)
  exact (hinsert.2 _ _ _).mpr hruns

end Program

end Offside
