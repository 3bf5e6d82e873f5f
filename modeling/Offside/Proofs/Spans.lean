import Offside.Proofs.Moving
import Offside.Proofs.Places
import Offside.Proofs.Grammar.CompleteProgram

/-!
# What the spans of a program delimit

The span of an item is that of its text and of nothing else: the items right below it lie in it one
after the other, and the text alone reads as the item again.

* items one after the other: `Arranged`, `Holds`, and each text holds the items of its part;
* the text of an expression read alone: `Expr.read?`, `Expr.WrittenAt.read?`;
* the text of a function read alone: `FunDef.WrittenAt.parse`;
* **spans delimit exactly the text of their item**: `Program.spans_delimit`.
-/

namespace Offside

/-! ### The items right below an item -/

/-- The condition of a branch and its body. -/
def Branch.children (br : Branch) : List Item :=
  [.expr br.test, .body br.body]

/-- The items right below an item, in source order. -/
def Item.children : Item → List Item
  | .ident _ => []
  | .expr (.call f args _) => .ident f :: args.map .expr
  | .expr (.assign x e _) => [.ident x, .expr e]
  | .expr (.name x _) => [.ident x]
  | .expr (.string _ _) => []
  | .expr (.number _ _ _) => []
  | .stmt (.line e _) => [.expr e]
  | .stmt (.block b _) => [.body b]
  | .stmt (.cond brs o _) => brs.flatMap Branch.children ++ o.toList.map .body
  | .body b => b.stmts.map .stmt
  | .function f => .ident f.name :: (f.params.map .ident ++ [.body f.body])

/-- **Items lie in a span, apart from each other and in their order.** -/
def Span.Covers (s : Span) (is : List Item) : Prop :=
  (∀ i ∈ is, s.start ≤ i.span.start ∧ i.span.stop ≤ s.stop) ∧
    is.Pairwise fun i j => i.span.stop ≤ j.span.start

/-! ### Items one after the other -/

/-- Items stand one after the other between two offsets. -/
def Arranged : Nat → Nat → List Item → Prop
  | lo, hi, [] => lo ≤ hi
  | lo, hi, i :: is => lo ≤ i.span.start ∧ i.span.start ≤ i.span.stop ∧ Arranged i.span.stop hi is

namespace Arranged

variable {lo lo' mid hi : Nat} {is js : List Item}

theorem le (h : Arranged lo hi is) : lo ≤ hi := by
  induction is generalizing lo with
  | nil => exact h
  | cons i is ih =>
    obtain ⟨hlo, hspan, hrest⟩ := h
    have := ih hrest
    omega

theorem of_le (h : Arranged lo hi is) (hle : lo' ≤ lo) : Arranged lo' hi is := by
  cases is with
  | nil => exact Nat.le_trans hle h
  | cons i is => exact ⟨Nat.le_trans hle h.1, h.2⟩

theorem append (h₁ : Arranged lo mid is) (h₂ : Arranged mid hi js) : Arranged lo hi (is ++ js) := by
  induction is generalizing lo with
  | nil => exact h₂.of_le h₁
  | cons i is ih => exact ⟨h₁.1, h₁.2.1, ih h₁.2.2⟩

theorem covers (h : Arranged lo hi is) : Span.Covers ⟨lo, hi⟩ is := by
  induction is generalizing lo with
  | nil => exact ⟨by simp, .nil⟩
  | cons i is ih =>
    obtain ⟨hlo, hspan, hrest⟩ := h
    obtain ⟨hin, hapart⟩ := ih hrest
    have hstop : i.span.stop ≤ hi := hrest.le
    refine ⟨fun j hj => ?_, .cons (fun j hj => (hin j hj).1) hapart⟩
    rcases List.mem_cons.mp hj with rfl | hj
    · exact ⟨hlo, hstop⟩
    · have hj' := hin j hj
      exact ⟨by simp only at hj' ⊢; omega, hj'.2⟩

end Arranged

open Text Pattern

/-- A text that starts at an offset holds items, one after the other. -/
def Holds (pos : Nat) (t : List Char) (is : List Item) : Prop :=
  Arranged pos (pos + byteSize t) is

namespace Holds

variable {pos : Nat} {t u : List Char} {is js : List Item}

theorem nil (pos : Nat) (t : List Char) : Holds pos t [] :=
  Nat.le_add_right pos (byteSize t)

theorem single {i : Item} (h : i.span = .over pos t) : Holds pos t [i] := by
  unfold Holds Arranged Arranged
  rw [h]
  exact ⟨Nat.le_refl pos, Nat.le_add_right pos (byteSize t), Nat.le_refl _⟩

theorem append (h₁ : Holds pos t is) (h₂ : Holds (pos + byteSize t) u js) :
    Holds pos (t ++ u) (is ++ js) := by
  unfold Holds
  rw [byteSize_append, ← Nat.add_assoc]
  exact Arranged.append h₁ h₂

theorem after (t : List Char) (h : Holds (pos + byteSize t) u js) : Holds pos (t ++ u) js :=
  (nil pos t).append h

theorem before (h : Holds pos t is) (u : List Char) : Holds pos (t ++ u) is := by
  have := h.append (nil (pos + byteSize t) u)
  rwa [List.append_nil] at this

end Holds

/-! ### A text holds its item -/

section
variable {pos : Nat} {t k : List Char} {ind : List (List Char)}

theorem Ident.WrittenAt.self {x : Ident} (h : x.WrittenAt pos t) : Holds pos t [.ident x] :=
  .single h.span_eq

theorem Expr.WrittenAt.self {e : Expr} (h : e.WrittenAt pos t) : Holds pos t [.expr e] :=
  .single h.span_eq

/-- The span of a statement leaves out the end of its line, if it is an expression. -/
theorem Stmt.WrittenAt.self {s : Stmt} (h : s.WrittenAt ind pos t k) : Holds pos t [.stmt s] := by
  cases h with
  | @line _ _ _ t v _ _ _ => exact (Holds.single rfl).before v
  | block _ => exact .single rfl
  | cond _ _ _ => exact .single rfl

theorem Body.WrittenAt.self {b : Body} (h : b.WrittenAt ind pos t k) : Holds pos t [.body b] :=
  .single h.span_eq

theorem FunDef.WrittenAt.self {d : FunDef} (h : d.WrittenAt pos t k) : Holds pos t [.function d] :=
  .single h.span_eq

/-! ### What the texts hold -/

theorem Listed.holds {α : Type} {R : Nat → List Char → α → Prop} {g : α → Item} {start : Bool}
    {xs : List α} (h : Listed R start pos t xs)
    (hg : ∀ {pos t x}, R pos t x → Holds pos t [g x]) : Holds pos t (xs.map g) := by
  induction h with
  | nil | comma => exact .nil ..
  | first _ hx _ ih => exact .after _ ((hg hx).append ih)
  | next _ _ hx _ ih =>
    exact .after _ (.after _ (.after _ ((hg hx).append ih)))

theorem Expr.WrittenAt.holds {e : Expr} (h : e.WrittenAt pos t) :
    Holds pos t (Item.children (.expr e)) := by
  cases h with
  | call hf _ hargs =>
    have hlist := (hargs.holds Expr.WrittenAt.self).before [')']
    exact hf.self.append (.after _ (.after _ hlist))
  | assign hx _ _ he =>
    exact hx.self.append (.after _ (.after _ (.after _ he.self)))
  | name hx => exact hx.self
  | string _ => exact .nil ..
  | number _ => exact .nil ..

theorem Block.WrittenAt.holds {b : Body} (h : Block.WrittenAt ind pos t k b) :
    Holds pos t [.body b] := by
  cases h with
  | mk _ hb => exact .after _ hb.self

theorem Branch.WrittenAt.holds {w : List Char} {br : Branch}
    (h : Branch.WrittenAt w ind pos t k br) : Holds pos t br.children := by
  cases h with
  | mk _ _ he hb => exact .after _ (.after _ (he.self.append hb.holds))

theorem Elifs.WrittenAt.holds {brs : List Branch} (h : Elifs.WrittenAt ind pos t k brs) :
    Holds pos t (brs.flatMap Branch.children) := by
  induction brs generalizing pos t with
  | nil => exact .nil ..
  | cons br brs ih =>
    cases h with
    | cons _ hbr hrest =>
      rw [List.flatMap_cons]
      exact .after _ (.after _ (hbr.holds.append (ih hrest)))

theorem Else.WrittenAt.holds {o : Option Body} (h : Else.WrittenAt ind pos t k o) :
    Holds pos t (o.toList.map .body) := by
  cases h with
  | absent => exact .nil ..
  | present _ hb => exact .after _ (.after _ (.after _ hb.holds))

theorem Lines.WrittenAt.holds {ss : List Stmt} (h : Lines.WrittenAt ind pos t k ss) :
    Holds pos t (ss.map .stmt) := by
  induction ss generalizing pos t with
  | nil => exact .nil ..
  | cons s ss ih =>
    cases h with
    | cons _ hs hrest => exact .after _ (.after _ (hs.self.append (ih hrest)))

theorem Body.WrittenAt.holds {b : Body} (h : b.WrittenAt ind pos t k) :
    Holds pos t (Item.children (.body b)) := by
  cases h with
  | mk _ _ hs hlines => exact .after _ (.after _ (hs.self.append hlines.holds))

theorem FunDef.WrittenAt.holds {d : FunDef} (h : d.WrittenAt pos t k) :
    Holds pos t (Item.children (.function d)) := by
  cases h with
  | mk _ _ hname _ hparams hblock =>
    have hlist := (hparams.holds Ident.WrittenAt.self).append
      (.after [')'] hblock.holds)
    exact .after _ (.after _ (hname.self.append (.after _ (.after _ hlist))))

theorem Defs.WrittenAt.holds {ds : List FunDef} (h : Defs.WrittenAt pos t k ds) :
    Holds pos t (ds.map .function) := by
  induction h with
  | nil => exact .nil ..
  | cons _ hd _ ih => exact .after _ (hd.self.append ih)

end

/-- **The items right below an item lie in its span**, one after the other. -/
theorem Item.StandsIn.covers {cs : List Char} {i : Item} (h : i.StandsIn cs) :
    i.span.Covers i.children := by
  cases i with
  | ident x => exact ⟨by simp [Item.children], .nil⟩
  | expr e =>
    obtain ⟨pos, t, -, he⟩ := h
    have hcovers := Arranged.covers he.holds
    rwa [Item.span, he.span_eq]
  | stmt s =>
    obtain ⟨ind, pos, t, k, -, hs⟩ := h
    cases hs with
    | line he _ => exact Arranged.covers he.self
    | block hb => exact Arranged.covers (Holds.after _ hb.holds)
    | @cond _ _ br brs o t u v _ hbr helifs helse =>
      have hholds : Holds pos (t ++ (u ++ v))
          ((br :: brs).flatMap Branch.children ++ o.toList.map .body) := by
        rw [List.flatMap_cons, List.append_assoc]
        exact hbr.holds.append (helifs.holds.append helse.holds)
      exact Arranged.covers hholds
  | body b =>
    obtain ⟨ind, pos, t, k, -, hb⟩ := h
    have hcovers := Arranged.covers hb.holds
    rwa [Item.span, hb.span_eq]
  | function d =>
    obtain ⟨pos, t, k, -, hd⟩ := h
    have hcovers := Arranged.covers hd.holds
    rwa [Item.span, hd.span_eq]

/-! ### Texts read alone -/

/-- The expression that a text is, if its rule takes all of it. -/
def Expr.read? (t : List Char) : Option Expr :=
  match ((rule .lineStmt).matchStart t).result with
  | some (c, [n]) => if c.rest.isEmpty then Expr.ofNode? n else none
  | _ => none

section
variable {pos : Nat} {t k : List Char}

/-- **The text of an expression is read alone as that expression.** -/
theorem Expr.WrittenAt.read? {e : Expr} (h : e.WrittenAt pos t) :
    Expr.read? t = some (e.mapSpan (.unshift pos)) := by
  have hstart := h.moved (Span.moves_unshift pos)
  have hend : Delimited [] := ⟨[], [], rfl, Spaces.nil, by simp⟩
  obtain ⟨n, htakes, hn⟩ := hstart.takes [] hend
  have hmatch : ((rule .lineStmt).matchStart t).result = some (⟨[], 0 + byteSize t, []⟩, [n]) := by
    rw [matchStart_eq]
    rwa [Takes, List.append_nil] at htakes
  unfold Expr.read?
  rw [hmatch]
  exact hn

/-- **The text of a function is read alone as a program of that function.** -/
theorem FunDef.WrittenAt.parse {d : FunDef} (h : d.WrittenAt pos t k) :
    Program.parse (String.ofList t) =
      .ok ⟨[d.mapSpan (.unshift pos)], ⟨0, byteSize t⟩⟩ := by
  have hstart := h.moved (Span.moves_unshift pos) .at_end
  have hdefs : Defs.WrittenAt 0 t [] [d.mapSpan (.unshift pos)] := by
    have := Defs.WrittenAt.cons .nil hstart .nil
    rwa [List.nil_append, List.append_nil] at this
  rw [Program.parse_eq_ok_iff_written, String.toList_ofList]
  refine ⟨t, [], [], by simp, hdefs, by simp, .nil, ⟨[], [], rfl, Spaces.nil, Or.inl rfl⟩, ?_⟩
  rw [Span.over, Nat.zero_add]

end

/-! ### All spans of a program -/

/-- **Spans delimit exactly the text of their item.**  They are cut from the source between
characters; those of the items right below an item lie in its span, apart from each other and in
order.  At the span of a name, a number or a string stands just what it is; the text of an expression
reads alone as that expression, and the text of a function as a program of that one function, both
moved to the start. -/
theorem Program.spans_delimit {source : String} {p : Program} (h : parse source = .ok p) :
    p.span = ⟨0, byteSize source.toList⟩ ∧
    p.span.Covers (p.funs.map .function) ∧
    (∀ i ∈ p.items, i.span.Covers i.children ∧
      ∃ t, slice? source.toList i.span.start i.span.stop = some t) ∧
    (∀ x, .ident x ∈ p.items →
      slice? source.toList x.span.start x.span.stop = some x.name.toList) ∧
    (∀ κ text span, .expr (.number κ text span) ∈ p.items →
      slice? source.toList span.start span.stop = some text.toList) ∧
    (∀ lit span, .expr (.string lit span) ∈ p.items →
      slice? source.toList span.start span.stop = some lit.sourceForm.toList) ∧
    (∀ e, .expr e ∈ p.items → ∃ t, slice? source.toList e.span.start e.span.stop = some t ∧
      Expr.read? t = some (e.mapSpan (.unshift e.span.start))) ∧
    (∀ f ∈ p.funs, ∃ t, slice? source.toList f.span.start f.span.stop = some t ∧
      parse (String.ofList t) = .ok ⟨[f.mapSpan (.unshift f.span.start)], ⟨0, byteSize t⟩⟩) := by
  have hstands := items_standIn h
  obtain ⟨t, b, z, hsource, hdefs, -, -, -, hspan⟩ := written_of_parse h
  have hcovers : Span.Covers ⟨0, byteSize source.toList⟩ (p.funs.map .function) := by
    have hholds := hdefs.holds.before (b ++ z)
    rw [← hsource] at hholds
    have := Arranged.covers hholds
    rwa [Nat.zero_add] at this
  rw [Span.over, Nat.zero_add] at hspan
  refine ⟨hspan, by rwa [hspan], fun i hi => ?_, fun x hx => ?_, fun κ text span hn => ?_,
    fun lit span hlit => ?_, fun e he => ?_, fun f hf => ?_⟩
  · exact ⟨(hstands i hi).covers, (hstands i hi).slice⟩
  · exact Ident.slice_of_standsIn (hstands _ hx)
  · obtain ⟨pos, t, hs, hwritten⟩ := hstands _ hn
    cases hwritten with
    | number _ =>
      rw [String.toList_ofList]
      exact hs.slice
  · obtain ⟨pos, t, hs, hwritten⟩ := hstands _ hlit
    cases hwritten with
    | string _ => exact hs.slice
  · obtain ⟨pos, t, hs, hwritten⟩ := hstands _ he
    rw [hwritten.span_eq]
    exact ⟨t, hs.slice, hwritten.read?⟩
  · have hmem : .function f ∈ p.items := List.mem_flatMap.mpr ⟨f, hf, List.mem_cons_self ..⟩
    obtain ⟨pos, t, k, hs, hwritten⟩ := hstands _ hmem
    rw [hwritten.span_eq]
    exact ⟨t, hs.slice, hwritten.parse⟩

/-- Two functions with a branch, a comment, a character of two bytes and a trailing comma. -/
theorem Program.spans_delimit_chain : ∃ p,
    parse "def f(x, y,):\n\tif x # é\n\t\ty = g('é', 0x1F)\n\n\telse\n\t\t1.5\n\ndef g(a)\n\ta" =
      .ok p ∧
    p.funs.map FunDef.span = [⟨0, 58⟩, ⟨59, 70⟩] ∧
    (∀ i ∈ p.items, i.span.Covers i.children) ∧
    ∀ f ∈ p.funs, ∃ t, parse (String.ofList t) =
      .ok ⟨[f.mapSpan (.unshift f.span.start)], ⟨0, byteSize t⟩⟩ := by
  have h : (parse "def f(x, y,):\n\tif x # é\n\t\ty = g('é', 0x1F)\n\n\telse\n\t\t1.5\n\ndef g(a)\n\ta"
      ).toOption.map (fun p => p.funs.map FunDef.span) = some [⟨0, 58⟩, ⟨59, 70⟩] := by
    decide +kernel
  obtain ⟨p, hp, hspans⟩ := Option.map_eq_some_iff.mp h
  have hparse := parse_eq_ok_of_toOption hp
  obtain ⟨-, -, hitems, -, -, -, -, hfuns⟩ := spans_delimit hparse
  refine ⟨p, hparse, hspans, fun i hi => (hitems i hi).1, fun f hf => ?_⟩
  obtain ⟨t, -, ht⟩ := hfuns f hf
  exact ⟨t, ht⟩

end Offside
