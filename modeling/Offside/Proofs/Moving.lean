import Offside.Proofs.Syntax
import Offside.Proofs.Grammar.Soundness

/-!
# Texts that are moved

The text of a part of a program can be moved: it can start at another offset, and another text can
come after it.  It is then the text of the same part with other spans, as long as its last line still
ends where it ended.

* the part with other spans: `Expr.mapSpan`, `Stmt.mapSpan`, `FunDef.mapSpan`;
* offsets that are moved: `Span.Moves`; what may come after a text instead: `Exchange`;
* **a text that is moved**: `Expr.WrittenAt.moved`, `FunDef.WrittenAt.moved`.
-/

namespace Offside

/-! ### Parts with other spans -/

/-- The span moved `n` bytes towards the start of the source. -/
def Span.unshift (n : Nat) (s : Span) : Span :=
  ⟨s.start - n, s.stop - n⟩

section
variable (f : Span → Span)

/-- The name with another span. -/
def Ident.mapSpan (x : Ident) : Ident := ⟨x.name, f x.span⟩

mutual

/-- The expression with other spans. -/
def Expr.mapSpan : Expr → Expr
  | .call x args span => .call (x.mapSpan f) (Expr.mapSpans args) (f span)
  | .assign x e span => .assign (x.mapSpan f) e.mapSpan (f span)
  | .name x span => .name (x.mapSpan f) (f span)
  | .string lit span => .string lit (f span)
  | .number κ text span => .number κ text (f span)

def Expr.mapSpans : List Expr → List Expr
  | [] => []
  | e :: es => e.mapSpan :: Expr.mapSpans es

end

mutual

/-- The statement with other spans. -/
def Stmt.mapSpan : Stmt → Stmt
  | .line e span => .line (e.mapSpan f) (f span)
  | .block b span => .block b.mapSpan (f span)
  | .cond brs o span => .cond (Branch.mapSpans brs) (Body.mapSpanOption o) (f span)

def Branch.mapSpans : List Branch → List Branch
  | [] => []
  | .mk e b :: brs => .mk (e.mapSpan f) b.mapSpan :: Branch.mapSpans brs

/-- The body with other spans. -/
def Body.mapSpan : Body → Body
  | .mk ss span => .mk (Stmt.mapSpans ss) (f span)

def Body.mapSpanOption : Option Body → Option Body
  | none => none
  | some b => some b.mapSpan

def Stmt.mapSpans : List Stmt → List Stmt
  | [] => []
  | s :: ss => s.mapSpan :: Stmt.mapSpans ss

end

/-- **The function with other spans.** -/
def FunDef.mapSpan (d : FunDef) : FunDef :=
  ⟨d.name.mapSpan f, d.params.map (Ident.mapSpan f), d.body.mapSpan f, f d.span⟩

theorem Expr.mapSpans_eq_map (es : List Expr) : Expr.mapSpans f es = es.map (Expr.mapSpan f) := by
  induction es with
  | nil => rfl
  | cons e es ih => rw [Expr.mapSpans, ih, List.map_cons]

end

/-! ### Parts with the same spans -/

theorem Expr.mapSpan_id (e : Expr) : e.mapSpan id = e := by
  induction e using Expr.induction with
  | call x args span ih =>
    rw [Expr.mapSpan, Expr.mapSpans_eq_map, List.map_congr_left ih, List.map_id']
    rfl
  | assign x e span ih =>
    rw [Expr.mapSpan, ih]
    rfl
  | name | string | number => rfl

theorem Branch.mapSpans_id {brs : List Branch} (h : ∀ br ∈ brs, br.body.mapSpan id = br.body) :
    Branch.mapSpans id brs = brs := by
  induction brs with
  | nil => rfl
  | cons br brs ih =>
    obtain ⟨e, b⟩ := br
    have hb : b.mapSpan id = b := h _ (List.mem_cons_self ..)
    rw [Branch.mapSpans, e.mapSpan_id, hb, ih fun br' hbr' => h br' (List.mem_cons_of_mem _ hbr')]

theorem Stmt.mapSpans_id {ss : List Stmt} (h : ∀ s ∈ ss, s.mapSpan id = s) :
    Stmt.mapSpans id ss = ss := by
  induction ss with
  | nil => rfl
  | cons s ss ih =>
    rw [Stmt.mapSpans, h s (List.mem_cons_self ..), ih fun s' hs' => h s' (List.mem_cons_of_mem _ hs')]

theorem mapSpan_id_cases :
    Stmt.Cases (fun s => s.mapSpan id = s) (fun b => b.mapSpan id = b) where
  line e span := by
    rw [Stmt.mapSpan, e.mapSpan_id]
    rfl
  block b span hb := by
    rw [Stmt.mapSpan, hb]
    rfl
  cond brs o span hbrs ho := by
    have hoption : Body.mapSpanOption id o = o := by
      cases o with
      | none => rfl
      | some b => rw [Body.mapSpanOption, ho b rfl]
    rw [Stmt.mapSpan, Branch.mapSpans_id hbrs, hoption]
    rfl
  body ss span hss := by
    rw [Body.mapSpan, Stmt.mapSpans_id hss]
    rfl

theorem FunDef.mapSpan_id (d : FunDef) : d.mapSpan id = d := by
  have hparams : d.params.map (Ident.mapSpan id) = d.params := List.map_id' d.params
  unfold FunDef.mapSpan
  rw [hparams, mapSpan_id_cases.body' d.body]
  rfl

/-! ### Offsets that are moved -/

open Text Pattern

/-- The spans from the offset `pos` on are moved as far as it takes from `pos` to `pos'`. -/
def Span.Moves (f : Span → Span) (pos pos' : Nat) : Prop :=
  ∀ n t, f (.over (pos + n) t) = .over (pos' + n) t

namespace Span

variable {f : Span → Span} {pos pos' : Nat}

theorem Moves.over (h : Moves f pos pos') (t : List Char) : f (.over pos t) = .over pos' t :=
  h 0 t

theorem Moves.add (h : Moves f pos pos') (n : Nat) : Moves f (pos + n) (pos' + n) := by
  intro m t
  rw [Nat.add_assoc, Nat.add_assoc]
  exact h (n + m) t

theorem moves_id (pos : Nat) : Moves id pos pos :=
  fun _ _ => rfl

theorem moves_shift (n pos : Nat) : Moves (shift n) pos (pos + n) := by
  intro m t
  simp only [shift, Span.over, mk.injEq]
  omega

theorem moves_unshift (pos : Nat) : Moves (unshift pos) pos 0 := by
  intro m t
  simp only [unshift, Span.over, mk.injEq]
  omega

end Span

/-! ### What may come after a text instead -/

theorem LineEnd.congr {v k k' : List Char} (h : LineEnd v k) (hk : k'.head? = k.head?) :
    LineEnd v k' := by
  obtain ⟨a, b, n, rfl, ha, hb, hn | ⟨rfl, rfl⟩⟩ := h
  · refine ⟨a, b, n, rfl, ha, hb, Or.inl ⟨hn.1, ?_⟩⟩
    rw [hk]
    exact hn.2
  · exact ⟨a, b, [], rfl, ha, hb, Or.inr ⟨rfl, List.head?_eq_none_iff.mp hk⟩⟩

/-- At the end of a source every line ends. -/
theorem LineEnd.at_end {v k : List Char} (h : LineEnd v k) : LineEnd v [] := by
  obtain ⟨a, b, n, rfl, ha, hb, hn | ⟨rfl, -⟩⟩ := h
  · exact ⟨a, b, n, rfl, ha, hb, Or.inl ⟨hn.1, by simp⟩⟩
  · exact ⟨a, b, [], rfl, ha, hb, Or.inr ⟨rfl, rfl⟩⟩

/-- The characters of a comment, or of blanks, do not end the line. -/
theorem LastLine.notMem_newline {z : List Char} (h : LastLine z) : '\n' ∉ z := by
  obtain ⟨a, b, rfl, ha, hb⟩ := h
  rw [List.mem_append, not_or]
  refine ⟨fun hmem => ?_, fun hmem => ?_⟩
  · cases ha _ hmem
  · rcases hb with rfl | ⟨u, rfl, hu⟩
    · cases hmem
    · rcases List.mem_cons.mp hmem with heq | hmem
      · cases heq
      · cases hu _ hmem

/-- A line that ends in a line feed has ended, whatever comes after it. -/
theorem LineEnd.of_newline {v : List Char} (h : LineEnd v []) (hv : v.getLast? = some '\n')
    (k : List Char) : LineEnd v k := by
  obtain ⟨a, b, n, rfl, ha, hb, ⟨hn, -⟩ | ⟨rfl, -⟩⟩ := h
  · refine ⟨a, b, n, rfl, ha, hb, Or.inl ⟨hn, ?_⟩⟩
    rintro rfl
    rw [← List.append_assoc, List.getLast?_concat] at hv
    cases hv
  · rw [List.append_nil] at hv
    exact absurd (List.mem_of_getLast? hv) (LastLine.notMem_newline ⟨a, b, rfl, ha, hb⟩)

/-- **After `t` the text `k` can be exchanged for `k'`**: where a line that has not ended before goes
on to the end of `t`, it ends there before `k'` as it did before `k`. -/
def Exchange (t k k' : List Char) : Prop :=
  ∀ u x v, t = u ++ x :: v → x ≠ '\n' → LineEnd v k → LineEnd v k'

namespace Exchange

variable {a b t k k' : List Char}

theorem refl (t k : List Char) : Exchange t k k :=
  fun _ _ _ _ _ hv => hv

theorem of_head (h : k'.head? = k.head?) : Exchange t k k' :=
  fun _ _ _ _ _ hv => hv.congr h

theorem at_end : Exchange t k [] :=
  fun _ _ _ _ _ hv => hv.at_end

/-- A text that ends in a line feed at the end of a source can be followed by any other text. -/
theorem of_newline (h : t.getLast? = some '\n') : Exchange t [] k := by
  rintro u x v rfl hx hv
  rw [List.getLast?_append, List.getLast?_cons, Option.some_or] at h
  cases hlast : v.getLast? with
  | none =>
    rw [hlast] at h
    exact absurd (Option.some.inj h) hx
  | some y =>
    rw [hlast] at h
    exact hv.of_newline (hlast.trans h) k

theorem right (h : Exchange (a ++ b) k k') : Exchange b k k' := by
  rintro u x v rfl hx hv
  exact h (a ++ u) x v (by simp) hx hv

theorem left (h : Exchange (a ++ b) k k') : Exchange a (b ++ k) (b ++ k') := by
  cases b with
  | nil =>
    rw [List.append_nil] at h
    exact h
  | cons y b => exact .of_head rfl

end Exchange

/-! ### Names and expressions that are moved -/

section
variable {f : Span → Span} {pos pos' : Nat} {t u k k' : List Char} {ind : List (List Char)}

theorem Ident.WrittenAt.moved {x : Ident} (hf : Span.Moves f pos pos') (h : x.WrittenAt pos t) :
    (x.mapSpan f).WrittenAt pos' t := by
  obtain ⟨hname, rfl⟩ := h
  refine ⟨hname, ?_⟩
  rw [Ident.mapSpan, hf.over]

theorem Listed.moved {α : Type} {R : Nat → List Char → α → Prop} {g : α → α} {start : Bool}
    {xs : List α} (hg : ∀ x ∈ xs, ∀ {pos pos' t}, Span.Moves f pos pos' → R pos t x → R pos' t (g x))
    (hf : Span.Moves f pos pos') (h : Listed R start pos t xs) :
    Listed R start pos' t (xs.map g) := by
  induction h generalizing pos' with
  | nil ha => exact .nil ha
  | comma ha hc => exact .comma ha hc
  | first ha hx _ ih =>
    refine .first ha (hg _ (List.mem_cons_self ..) (hf.add _) hx) ?_
    exact ih (fun y hy => hg y (List.mem_cons_of_mem _ hy)) ((hf.add _).add _)
  | next ha hb hx _ ih =>
    refine .next ha hb (hg _ (List.mem_cons_self ..) (((hf.add _).add _).add _) hx) ?_
    exact ih (fun y hy => hg y (List.mem_cons_of_mem _ hy)) ((((hf.add _).add _).add _).add _)

/-- **The text of an expression can stand anywhere.** -/
theorem Expr.WrittenAt.moved {e : Expr} (hf : Span.Moves f pos pos') (h : e.WrittenAt pos t) :
    (e.mapSpan f).WrittenAt pos' t := by
  induction e using Expr.induction generalizing pos pos' t with
  | call x args span ih =>
    cases h with
    | call hx ha hargs =>
      rw [Expr.mapSpan, Expr.mapSpans_eq_map, hf.over]
      refine .call (hx.moved hf) ha (hargs.moved (fun e he _ _ _ hf' h' => ih e he hf' h') ?_)
      exact ((hf.add _).add _).add _
  | assign x e span ih =>
    cases h with
    | assign hx ha hb he =>
      rw [Expr.mapSpan, hf.over]
      exact .assign (hx.moved hf) ha hb (ih ((((hf.add _).add _).add _).add _) he)
  | name x span =>
    cases h with
    | name hx =>
      rw [Expr.mapSpan, hf.over]
      exact .name (hx.moved hf)
  | string lit span =>
    cases h with
    | string hlit =>
      rw [Expr.mapSpan, hf.over]
      exact .string hlit
  | number κ cs span =>
    cases h with
    | number ht =>
      rw [Expr.mapSpan, hf.over]
      exact .number ht

/-! ### Statements that are moved -/

/-- A text of characters of a class without the line feed does not end in one. -/
theorem last_ne_newline {p : Char → Bool} (hp : p '\n' = false) (ht : t ≠ [])
    (h : ∀ x ∈ t, p x = true) : ∃ u x, t = u ++ [x] ∧ x ≠ '\n' := by
  refine ⟨t.dropLast, t.getLast ht, (List.dropLast_concat_getLast ht).symm, fun heq => ?_⟩
  have hlast := h _ (List.getLast_mem ht)
  rw [heq, hp] at hlast
  cases hlast

theorem StrLit.sourceForm_last (lit : StrLit) :
    ∃ u, lit.sourceForm.toList = u ++ [lit.quote.mark] := by
  obtain ⟨content, quote, long⟩ := lit
  rw [← content.ofList_toList]
  cases long with
  | true =>
    refine ⟨[quote.mark, quote.mark, quote.mark] ++ (content.toList ++ [quote.mark, quote.mark]), ?_⟩
    rw [StrLit.sourceForm_long]
    simp [longText]
  | false =>
    refine ⟨[quote.mark] ++ content.toList, ?_⟩
    rw [StrLit.sourceForm_short]
    simp [shortText]

/-- An expression does not end in a line feed. -/
theorem Expr.WrittenAt.last {e : Expr} (h : e.WrittenAt pos t) :
    ∃ u x, t = u ++ [x] ∧ x ≠ '\n' := by
  induction e using Expr.induction generalizing pos t with
  | call x args span _ =>
    cases h with
    | @call _ _ _ t a u _ _ _ => exact ⟨t ++ (a ++ (['('] ++ u)), ')', by simp, by decide⟩
  | assign x e span ih =>
    cases h with
    | @assign _ _ _ t a b u _ _ _ he =>
      obtain ⟨v, y, rfl, hy⟩ := ih he
      exact ⟨t ++ (a ++ (['='] ++ (b ++ v))), y, by simp, hy⟩
  | name x span =>
    cases h with
    | name hx =>
      obtain ⟨y, u, rfl, -⟩ := hx.head
      exact last_ne_newline (by decide) (List.cons_ne_nil y u) hx.1.inner
  | string lit span =>
    cases h with
    | string _ =>
      obtain ⟨u, hu⟩ := lit.sourceForm_last
      refine ⟨u, lit.quote.mark, hu, ?_⟩
      cases lit.quote <;> decide
  | number κ cs span =>
    cases h with
    | number ht =>
      obtain ⟨y, u, rfl, -⟩ := ht.head
      refine last_ne_newline (p := isNumeral) (by decide) (List.cons_ne_nil y u) fun x hx => ?_
      exact NumberKind.isNumeral_of_uses (ht.uses x hx)

theorem Header.congr (h : Header t k) (hk : k'.head? = k.head?) : Header t k' := by
  obtain ⟨a, c, e, b, rfl, ha, hc, he, hb⟩ := h
  refine ⟨a, c, e, b, rfl, ha, hc, he.congr ?_, hb⟩
  rw [List.head?_append, List.head?_append, hk]

/-- A statement whose text can be moved. -/
def Stmt.Movable (f : Span → Span) (s : Stmt) : Prop :=
  ∀ {ind : List (List Char)} {pos pos' : Nat} {t k k' : List Char}, Span.Moves f pos pos' →
    Exchange t k k' → s.WrittenAt ind pos t k → (s.mapSpan f).WrittenAt ind pos' t k'

/-- A body whose text can be moved. -/
def Body.Movable (f : Span → Span) (b : Body) : Prop :=
  ∀ {ind : List (List Char)} {pos pos' : Nat} {t k k' : List Char}, Span.Moves f pos pos' →
    Exchange t k k' → b.WrittenAt ind pos t k → (b.mapSpan f).WrittenAt ind pos' t k'

theorem Block.WrittenAt.moved {b : Body} (hb : b.Movable f) (hf : Span.Moves f pos pos')
    (hk : Exchange t k k') (h : Block.WrittenAt ind pos t k b) :
    Block.WrittenAt ind pos' t k' (b.mapSpan f) := by
  cases h with
  | @mk _ _ _ h u _ hheader hbody =>
    have hhead : (u ++ k').head? = (u ++ k).head? := by
      obtain ⟨x, w, rfl⟩ := List.exists_cons_of_ne_nil hbody.ne_nil
      rfl
    exact .mk (hheader.congr hhead) (hb (hf.add _) hk.right hbody)

theorem Branch.WrittenAt.moved {w : List Char} {e : Expr} {b : Body} (hb : b.Movable f)
    (hf : Span.Moves f pos pos') (hk : Exchange t k k')
    (h : Branch.WrittenAt w ind pos t k (.mk e b)) :
    Branch.WrittenAt w ind pos' t k' (.mk (e.mapSpan f) (b.mapSpan f)) := by
  cases h with
  | @mk _ _ _ _ _ g _ _ _ hg hstop he hblock =>
    have htest := (hf.add (byteSize w)).add (byteSize g)
    exact .mk hg hstop (he.moved htest) (hblock.moved hb (htest.add _) hk.right.right.right)

theorem Elifs.WrittenAt.moved {brs : List Branch} (hbrs : ∀ br ∈ brs, br.body.Movable f)
    (hf : Span.Moves f pos pos') (hk : Exchange t k k') (h : Elifs.WrittenAt ind pos t k brs) :
    Elifs.WrittenAt ind pos' t k' (Branch.mapSpans f brs) := by
  induction brs generalizing pos pos' t with
  | nil =>
    cases h
    exact .nil
  | cons br brs ih =>
    obtain ⟨e, b⟩ := br
    cases h with
    | @cons _ _ _ _ l _ _ _ hempty hbr hrest =>
      have hplace := (hf.add (byteSize l)).add (byteSize ind.flatten)
      have hb : b.Movable f := hbrs (.mk e b) (List.mem_cons_self ..)
      refine .cons hempty (hbr.moved hb hplace hk.right.right.left) ?_
      exact ih (fun br' h' => hbrs br' (List.mem_cons_of_mem _ h')) (hplace.add _)
        hk.right.right.right hrest

theorem Else.WrittenAt.moved {o : Option Body} (ho : ∀ b ∈ o, b.Movable f)
    (hf : Span.Moves f pos pos') (hk : Exchange t k k') (h : Else.WrittenAt ind pos t k o) :
    Else.WrittenAt ind pos' t k' (Body.mapSpanOption f o) := by
  cases h with
  | absent => exact .absent
  | @present _ _ _ l _ _ hempty hblock =>
    have hplace := ((hf.add (byteSize l)).add (byteSize ind.flatten)).add (byteSize ['e', 'l', 's', 'e'])
    exact .present hempty (hblock.moved (ho _ rfl) hplace hk.right.right.right)

theorem Lines.WrittenAt.moved {ss : List Stmt} (hss : ∀ s ∈ ss, s.Movable f)
    (hf : Span.Moves f pos pos') (hk : Exchange t k k') (h : Lines.WrittenAt ind pos t k ss) :
    Lines.WrittenAt ind pos' t k' (Stmt.mapSpans f ss) := by
  induction ss generalizing pos pos' t with
  | nil =>
    cases h
    exact .nil
  | cons s ss ih =>
    cases h with
    | @cons _ _ _ _ l _ _ _ hempty hs hrest =>
      have hplace := (hf.add (byteSize l)).add (byteSize ind.flatten)
      refine .cons hempty (hss s (List.mem_cons_self ..) hplace hk.right.right.left hs) ?_
      exact ih (fun s' h' => hss s' (List.mem_cons_of_mem _ h')) (hplace.add _)
        hk.right.right.right hrest

theorem movable_cases (f : Span → Span) : Stmt.Cases (Stmt.Movable f) (Body.Movable f) where
  line e span := by
    intro ind pos pos' t k k' hf hk h
    cases h with
    | @line _ _ _ t v _ he hv =>
      rw [Stmt.mapSpan, hf.over]
      obtain ⟨u, x, hu, hx⟩ := he.last
      have hcut : t ++ v = u ++ x :: v := by rw [hu, List.append_assoc, List.singleton_append]
      exact .line (he.moved hf) (hk u x v hcut hx hv)
  block b span hb := by
    intro ind pos pos' t k k' hf hk h
    cases h with
    | block hblock =>
      rw [Stmt.mapSpan, hf.over]
      exact .block (hblock.moved hb (hf.add _) hk.right)
  cond brs o span hbrs ho := by
    intro ind pos pos' t k k' hf hk h
    cases h with
    | @cond _ _ br brs _ _ _ _ _ hbr helifs helse =>
      obtain ⟨e, b⟩ := br
      have hb : b.Movable f := hbrs (.mk e b) (List.mem_cons_self ..)
      rw [Stmt.mapSpan, hf.over, Branch.mapSpans]
      have hfirst := hk.left
      rw [List.append_assoc, List.append_assoc] at hfirst
      refine .cond (hbr.moved hb hf hfirst) ?_ ?_
      · exact helifs.moved (fun br' h' => hbrs br' (List.mem_cons_of_mem _ h')) (hf.add _)
          hk.right.left
      · exact helse.moved ho ((hf.add _).add _) hk.right.right
  body ss span hss := by
    intro ind pos pos' t k k' hf hk h
    cases h with
    | @mk _ _ _ _ own _ _ _ hown hspaces hs hlines =>
      rw [Body.mapSpan, hf.over, Stmt.mapSpans]
      have hplace := (hf.add (byteSize ind.flatten)).add (byteSize own)
      refine .mk hown hspaces (hss _ (List.mem_cons_self ..) hplace hk.right.right.left hs) ?_
      exact hlines.moved (fun s' h' => hss s' (List.mem_cons_of_mem _ h')) (hplace.add _)
        hk.right.right.right

/-! ### Functions that are moved -/

/-- **The text of a function can stand anywhere**, before any text before which its last line ends as
it does. -/
theorem FunDef.WrittenAt.moved {d : FunDef} (hf : Span.Moves f pos pos') (hk : Exchange t k k')
    (h : d.WrittenAt pos t k) : (d.mapSpan f).WrittenAt pos' t k' := by
  cases h with
  | @mk _ _ _ g t a _ _ _ hg hspaces hname ha hparams hblock =>
    rw [FunDef.mapSpan, hf.over]
    have hplace := (hf.add (byteSize ['d', 'e', 'f'])).add (byteSize g)
    have hlist := ((hplace.add (byteSize t)).add (byteSize a)).add (byteSize ['('])
    refine .mk hg hspaces (hname.moved hplace) ha ?_ ?_
    · exact hparams.moved (fun x _ _ _ _ hf' hx => hx.moved hf') hlist
    · exact hblock.moved ((movable_cases f).body' _) ((hlist.add _).add _)
        hk.right.right.right.right.right.right.right

theorem Defs.WrittenAt.moved {ds : List FunDef} (hf : Span.Moves f pos pos') (hk : Exchange t k k')
    (h : Defs.WrittenAt pos t k ds) : Defs.WrittenAt pos' t k' (ds.map (FunDef.mapSpan f)) := by
  induction h generalizing pos' with
  | nil => exact .nil
  | cons hempty hd _ ih =>
    refine .cons hempty (hd.moved (hf.add _) hk.right.left) ?_
    exact ih ((hf.add _).add _) hk.right.right

end

end Offside
