import Offside.Proofs.Margins
import Offside.Proofs.Grammar.CompleteProgram

/-!
# Parsing undoes printing

Whatever the layout, the print of a well-formed program is a text of it, and so it parses to the same
program with the spans of that text.

One thing is not as it was chosen: a line feed that stands for a line without code right after a
carriage return is taken as a part of that line break (`LineStyle.text_append`).  The statements
below are therefore about a part of a program together with the lines without code after it.

Bodies may have any margins that go together (`Program.marginsFit`); those of one kind of blank do.

* `Expr.print_written`, `printed_cases`, `FunDef.indented_written`, `Program.indented_written`;
* **parsing undoes printing**: `Program.parse_print`.
-/

namespace Offside

open Text Pattern

/-! ### Well-formed names and literals -/

theorem Rule.spells_iff {r : Rule} {t : List Char} :
    r.spells t = true ↔ ∃ ns, (Pattern.rule r).Takes [] 0 t [] ns := by
  unfold Rule.spells
  constructor
  · intro h
    split at h
    · next c ns hres =>
      rw [matchStart_eq] at hres
      obtain ⟨u, hu, -, htakes⟩ := takes_of_run (p := Pattern.rule r) rfl hres
      change t = u ++ c.rest at hu
      rw [List.isEmpty_iff] at h
      rw [h] at hu htakes
      rw [List.append_nil] at hu
      subst hu
      exact ⟨ns, htakes⟩
    · cases h
  · rintro ⟨ns, h⟩
    have hres : ((Pattern.rule r).matchStart t).result = some (⟨[], 0 + byteSize t, []⟩, ns) := by
      rw [matchStart_eq]
      unfold Takes at h
      rw [List.append_nil] at h
      exact h
    rw [hres]
    rfl

theorem Ident.isName_of_wellFormed {x : Ident} (h : x.wellFormed = true) : IsName x.name.toList := by
  obtain ⟨ns, h⟩ := Rule.spells_iff.mp h
  exact (takes_name_iff.mp h).1

theorem NumberKind.spells_of_rule {κ : NumberKind} {t : List Char} (h : κ.rule.spells t = true) :
    κ.Spells t := by
  obtain ⟨ns, h⟩ := Rule.spells_iff.mp h
  exact (takes_number_sound h).1

theorem StrLit.enclosed_of_wellFormed {lit : StrLit} (h : lit.wellFormed = true) : lit.Enclosed := by
  obtain ⟨content, quote, long⟩ := lit
  obtain ⟨body, rfl⟩ : ∃ body, content = String.ofList body := ⟨content.toList, by simp⟩
  obtain ⟨ns, h⟩ := Rule.spells_iff.mp h
  unfold StrLit.Enclosed
  cases long with
  | true =>
    simp only [if_true, StrLit.sourceForm_long] at h
    obtain ⟨q, body', -, heq, hbody, -⟩ := takes_longString_iff.mp h
    simp only [longText, List.cons_append, List.nil_append, List.cons.injEq] at heq
    obtain ⟨rfl, -, -, heq⟩ := heq
    obtain rfl := List.append_cancel_right heq
    simpa using hbody
  | false =>
    simp only [Bool.false_eq_true, if_false, StrLit.sourceForm_short] at h
    obtain ⟨q, body', -, heq, hbody, -⟩ := takes_string_iff.mp h
    simp only [shortText, List.cons_append, List.nil_append, List.cons.injEq] at heq
    obtain ⟨rfl, heq⟩ := heq
    obtain rfl := List.append_cancel_right heq
    simpa using hbody

theorem Expr.allWellFormed_iff {es : List Expr} :
    Expr.allWellFormed es = true ↔ ∀ e ∈ es, e.wellFormed = true := by
  induction es with
  | nil => simp [Expr.allWellFormed]
  | cons e es ih => simp [Expr.allWellFormed, ih]

theorem Stmt.allWellFormed_iff {ss : List Stmt} :
    Stmt.allWellFormed ss = true ↔ ∀ s ∈ ss, s.wellFormed = true := by
  induction ss with
  | nil => simp [Stmt.allWellFormed]
  | cons s ss ih => simp [Stmt.allWellFormed, ih]

theorem Branch.allWellFormed_iff {brs : List Branch} :
    Branch.allWellFormed brs = true ↔
      ∀ br ∈ brs, br.test.wellFormed = true ∧ br.body.wellFormed = true := by
  induction brs with
  | nil => simp [Branch.allWellFormed]
  | cons br brs ih =>
    cases br
    simp [Branch.allWellFormed, ih, Branch.test, Branch.body]

theorem Body.noneOrWellFormed_iff {o : Option Body} :
    Body.noneOrWellFormed o = true ↔ ∀ b ∈ o, b.wellFormed = true := by
  cases o <;> simp [Body.noneOrWellFormed]

/-! ### Without spans -/

theorem Expr.bares_eq_map (es : List Expr) : Expr.bares es = es.map Expr.bare := by
  induction es with
  | nil => rfl
  | cons e es ih => rw [Expr.bares, ih, List.map_cons]

/-! ### Blanks and line ends -/

theorem spaces_gapText (g : List Blank) : Spaces (gapText g) := by
  intro x hx
  obtain ⟨b, -, rfl⟩ := List.mem_map.mp hx
  cases b <;> rfl

theorem gapText_ne {g : List Blank} (h : g ≠ []) : gapText g ≠ [] := by
  simpa [gapText] using h

theorem comment_remarkText (r : Option Remark) : Comment (remarkText r) := by
  cases r with
  | none => exact Or.inl rfl
  | some r => exact Or.inr ⟨r.text, rfl, r.inLine⟩

theorem Newline.lineBreak_text (n : Newline) : LineBreak n.text := by
  cases n
  · exact Or.inl rfl
  · exact Or.inr (Or.inl rfl)
  · exact Or.inr (Or.inr rfl)

theorem emptyLines_emptyText (ls : List LineStyle) : EmptyLines (emptyText ls) := by
  induction ls with
  | nil => exact .nil
  | cons l ls ih =>
    exact .cons ⟨_, _, _, rfl, spaces_gapText _, comment_remarkText _, l.newline.lineBreak_text⟩ ih

/-- **The end of a line and the lines without code after it:** a carriage return takes a line feed
along. -/
theorem LineStyle.text_append (l : LineStyle) {cut : Bool} {b k : List Char} (hb : EmptyLines b)
    (hk : NoEmptyLine k) (hcut : cut = true → b = [] ∧ k = []) :
    ∃ v c, l.text cut ++ b = v ++ c ∧ EmptyLines c ∧ LineEnd v (c ++ k) := by
  have hgap := spaces_gapText l.gap
  have hremark := comment_remarkText l.remark
  unfold LineStyle.text
  cases cut with
  | true =>
    obtain ⟨rfl, rfl⟩ := hcut rfl
    exact ⟨_, [], rfl, .nil, _, _, [], by simp, hgap, hremark, Or.inr ⟨rfl, rfl⟩⟩
  | false =>
    by_cases hcr : l.newline = .cr ∧ (b ++ k).head? = some '\n'
    · obtain ⟨hcr, hhead⟩ := hcr
      cases b with
      | nil => exact absurd hhead hk.head_ne
      | cons x b =>
        cases hhead
        refine ⟨gapText l.gap ++ (remarkText l.remark ++ ['\r', '\n']), b, ?_, hb.of_lf, ?_⟩
        · simp [hcr, Newline.text]
        · exact ⟨_, _, _, rfl, hgap, hremark, Or.inl ⟨Or.inr (Or.inl rfl), by simp⟩⟩
    · refine ⟨_, b, rfl, hb, _, _, _, rfl, hgap, hremark, Or.inl ⟨l.newline.lineBreak_text, ?_⟩⟩
      intro htext hhead
      refine hcr ⟨?_, hhead⟩
      cases hn : l.newline with
      | cr => rfl
      | lf => rw [hn] at htext; simp [Newline.text] at htext
      | crlf => rw [hn] at htext; simp [Newline.text] at htext

/-! ### Lists -/

section
variable {α β : Type} {R : Nat → List Char → α → Prop} {print : Layout → α → List Char}
  {bare : α → β}

theorem Layout.closing_listed (l : Layout) (pos : Nat) : Listed R false pos l.closing [] := by
  unfold Layout.closing
  cases l.here.lastComma with
  | none => exact .nil (spaces_gapText _)
  | some g =>
    rw [List.append_assoc]
    exact .comma (spaces_gapText _) (spaces_gapText _)

/-- The items of a list after the first one. -/
theorem Layout.items_listed (l : Layout) {xs : List α}
    (h : ∀ x ∈ xs, ∀ l pos, ∃ y, R pos (print l x) y ∧ bare y = bare x) (i pos : Nat) :
    ∃ ys, Listed R false pos (l.items i (l.texts print i xs) ++ l.closing) ys ∧
      ys.map bare = xs.map bare := by
  induction xs generalizing i pos with
  | nil => exact ⟨[], l.closing_listed pos, rfl⟩
  | cons x xs ih =>
    obtain ⟨y, hy, hbare⟩ := h x (by simp) (l.part i) (pos +
      byteSize (gapText (l.part i).here.beforeComma) + byteSize [','] +
      byteSize (gapText (l.part i).here.afterComma))
    obtain ⟨ys, hys, hbares⟩ := ih (fun x hx => h x (by simp [hx])) (i + 1) (pos +
      byteSize (gapText (l.part i).here.beforeComma) + byteSize [','] +
      byteSize (gapText (l.part i).here.afterComma) + byteSize (print (l.part i) x))
    refine ⟨y :: ys, ?_, by simp [hbare, hbares]⟩
    have hnext := Listed.next (spaces_gapText _) (spaces_gapText _) hy hys
    simpa only [Layout.items, Layout.texts, List.append_assoc] using hnext

/-- What is printed between two parentheses is a list. -/
theorem Layout.list_listed (l : Layout) {xs : List α}
    (h : ∀ x ∈ xs, ∀ l pos, ∃ y, R pos (print l x) y ∧ bare y = bare x) (pos : Nat) :
    ∃ ys, Listed R true pos (l.list (l.texts print 0 xs)) ys ∧ ys.map bare = xs.map bare := by
  cases xs with
  | nil => exact ⟨[], .nil (spaces_gapText _), rfl⟩
  | cons x xs =>
    obtain ⟨y, hy, hbare⟩ := h x (by simp) (l.part 0) (pos + byteSize (gapText l.here.after))
    obtain ⟨ys, hys, hbares⟩ := l.items_listed (fun x' hx' => h x' (List.mem_cons_of_mem x hx')) 1
      (pos + byteSize (gapText l.here.after) + byteSize (print (l.part 0) x))
    exact ⟨y :: ys, .first (spaces_gapText _) hy hys, by simp [hbare, hbares]⟩

end

/-! ### Expressions -/

theorem Expr.prints_eq_texts (l : Layout) (i : Nat) (es : List Expr) :
    Expr.prints l i es = l.texts Expr.print i es := by
  induction es generalizing i with
  | nil => rfl
  | cons e es ih => rw [Expr.prints, ih, Layout.texts]

theorem Ident.print_written {x : Ident} (h : x.wellFormed = true) (l : Layout) (pos : Nat) :
    ∃ y, Ident.WrittenAt pos (x.print l) y ∧ y.bare = x.bare := by
  refine ⟨⟨x.name, .over pos (x.print l)⟩, ⟨x.isName_of_wellFormed h, ?_⟩, rfl⟩
  simp [Ident.print]

/-- **The print of an expression is a text of it.** -/
theorem Expr.print_written {e : Expr} (h : e.wellFormed = true) (l : Layout) (pos : Nat) :
    ∃ e', Expr.WrittenAt pos (e.print l) e' ∧ e'.bare = e.bare := by
  induction e using Expr.induction generalizing l pos with
  | call f args span ih =>
    simp only [Expr.wellFormed, Bool.and_eq_true, Expr.allWellFormed_iff] at h
    obtain ⟨g, hg, hbare⟩ := f.print_written h.1 l pos
    obtain ⟨args', hargs, hbares⟩ := l.list_listed (fun a ha l pos => ih a ha (h.2 a ha) l pos)
      (pos + byteSize (f.print l) + byteSize (gapText l.here.before) + byteSize ['('])
    refine ⟨_, .call hg (spaces_gapText _) (by simpa only [Expr.prints_eq_texts] using hargs), ?_⟩
    simp only [Expr.bare, Expr.bares_eq_map, hbare, hbares]
  | assign x e span ih =>
    simp only [Expr.wellFormed, Bool.and_eq_true] at h
    obtain ⟨y, hy, hbare⟩ := x.print_written h.1 l pos
    obtain ⟨e', he, hbare'⟩ := ih h.2 (l.part 0) (pos + byteSize (x.print l) +
      byteSize (gapText l.here.before) + byteSize ['='] + byteSize (gapText l.here.after))
    refine ⟨_, .assign hy (spaces_gapText _) (spaces_gapText _) he, ?_⟩
    simp only [Expr.bare, hbare, hbare']
  | name x span =>
    obtain ⟨y, hy, hbare⟩ := x.print_written h l pos
    exact ⟨_, .name hy, by simp only [Expr.bare, hbare]⟩
  | string lit span => exact ⟨_, .string (lit.enclosed_of_wellFormed h), rfl⟩
  | number κ cs span =>
    refine ⟨_, .number (κ.spells_of_rule h), ?_⟩
    simp [Expr.bare, Expr.print]

theorem Expr.print_solid {e : Expr} (h : e.wellFormed = true) (l : Layout) : Solid (e.print l) := by
  obtain ⟨e', he, -⟩ := e.print_written h l 0
  exact he.solid

/-! ### Parts with the lines without code after them -/

/-- What comes after a part: lines without code, and then a text that starts with none.  A part whose
last line is cut is the end of the source. -/
structure Rest (cut : Bool) (b k : List Char) : Prop where
  lines : EmptyLines b
  code : NoEmptyLine k
  ends : cut = true → b = [] ∧ k = []

/-- What comes after a part is a line of code. -/
theorem Rest.of_line {b w x : List Char} (hb : EmptyLines b) (hw : Spaces w) (hx : Solid x) :
    Rest false b (w ++ x) :=
  ⟨hb, .of_solid hw hx, fun h => by cases h⟩

/-- Together with the lines without code after it, a text starts with a part that is as wanted, and
goes on with lines without code. -/
def Splits (text : List Char) (cut : Bool) (W : Nat → List Char → List Char → Prop) : Prop :=
  ∀ (pos : Nat) {b k : List Char}, Rest cut b k →
    ∃ t c, text ++ b = t ++ c ∧ EmptyLines c ∧ W pos t (c ++ k)

/-- What is wanted of a part and of the next line below it. -/
def NextLine (margin : List Char) (W V : Nat → List Char → List Char → Prop) (pos : Nat)
    (t k : List Char) : Prop :=
  ∃ u c v, t = u ++ (c ++ (margin ++ v)) ∧ EmptyLines c ∧ W pos u (c ++ (margin ++ (v ++ k))) ∧
    V (pos + byteSize u + byteSize c + byteSize margin) v k

/-- **A part and the next line below it.** -/
theorem Splits.next {t b g u : List Char} {cut : Bool} {W V : Nat → List Char → List Char → Prop}
    (ht : Splits t false W) (hb : EmptyLines b) (hg : Spaces g) (hsolid : Solid u)
    (hu : Splits u cut V) : Splits (t ++ (b ++ (g ++ u))) cut (NextLine g W V) := by
  intro pos b' k hrest
  have hfirst : Rest false b (g ++ (u ++ (b' ++ k))) := .of_line hb hg hsolid.append
  obtain ⟨t₁, c₁, heq₁, hc₁, hW⟩ := ht pos hfirst
  obtain ⟨t₂, c₂, heq₂, hc₂, hV⟩ := hu (pos + byteSize t₁ + byteSize c₁ + byteSize g) hrest
  refine ⟨t₁ ++ (c₁ ++ (g ++ t₂)), c₂, ?_, hc₂, t₁, c₁, t₂, rfl, hc₁, ?_, hV⟩
  · calc t ++ (b ++ (g ++ u)) ++ b' = (t ++ b) ++ (g ++ (u ++ b')) := by simp
      _ = t₁ ++ c₁ ++ (g ++ (t₂ ++ c₂)) := by rw [heq₁, heq₂]
      _ = t₁ ++ (c₁ ++ (g ++ t₂)) ++ c₂ := by simp
  · have hk : u ++ (b' ++ k) = t₂ ++ (c₂ ++ k) := by
      rw [← List.append_assoc, heq₂, List.append_assoc]
    rwa [hk] at hW

theorem Splits.imp {t : List Char} {cut : Bool} {W V : Nat → List Char → List Char → Prop}
    (h : Splits t cut W) (himp : ∀ {pos u k}, W pos u k → V pos u k) : Splits t cut V := by
  intro pos b k hrest
  obtain ⟨u, c, heq, hc, hW⟩ := h pos hrest
  exact ⟨u, c, heq, hc, himp hW⟩

/-- A text with something before it. -/
theorem Splits.after {t : List Char} {cut : Bool} {W : Nat → List Char → List Char → Prop}
    (h : Splits t cut W) (a : List Char) :
    Splits (a ++ t) cut fun pos u k => ∃ v, u = a ++ v ∧ W (pos + byteSize a) v k := by
  intro pos b k hrest
  obtain ⟨v, c, heq, hc, hW⟩ := h (pos + byteSize a) hrest
  exact ⟨a ++ v, c, by rw [List.append_assoc, heq, List.append_assoc], hc, v, rfl, hW⟩

theorem LineStyle.splits (l : LineStyle) (cut : Bool) :
    Splits (l.text cut) cut fun _ t k => LineEnd t k := by
  intro pos b k hrest
  obtain ⟨v, c, heq, hc, hv⟩ := l.text_append hrest.lines hrest.code hrest.ends
  exact ⟨v, c, heq, hc, hv⟩

/-! ### Statements -/

/-- A text of the statement, up to spans. -/
def Stmt.Spelt (ind : List (List Char)) (s : Stmt) (pos : Nat) (t k : List Char) : Prop :=
  ∃ s', Stmt.WrittenAt ind pos t k s' ∧ s'.bare = s.bare

/-- A text of the body with the rest of the header line above it, up to spans. -/
def Body.Spelt (ind : List (List Char)) (b : Body) (pos : Nat) (t k : List Char) : Prop :=
  ∃ b', Block.WrittenAt ind pos t k b' ∧ b'.bare = b.bare

/-- A statement that is printed as a text of it. -/
def Stmt.Printed (s : Stmt) : Prop :=
  s.wellFormed = true → ∀ (l : Layout) {g : Margins} {ind : List (List Char)} {w : List Char}
    {cut : Bool}, Spaces w → s.marginsFit g w = true → ind.flatten = w →
    Splits (s.indented l g w cut) cut (s.Spelt ind)

/-- A body that is printed as a text of it. -/
def Body.Printed (b : Body) : Prop :=
  b.wellFormed = true → ∀ (l : Layout) {g : Margins} {ind : List (List Char)} {w : List Char}
    {cut : Bool}, Spaces w → b.marginsFit g w = true → ind.flatten = w →
    Splits (b.indented l g w cut) cut (b.Spelt ind)

theorem Stmt.indented_solid {s : Stmt} (h : s.wellFormed = true) (l : Layout) (g : Margins)
    (w : List Char) (cut : Bool) : Solid (s.indented l g w cut) := by
  cases s with
  | line e span =>
    rw [Stmt.indented]
    exact (e.print_solid h l).append
  | block b span =>
    rw [Stmt.indented]
    exact ⟨'d', _, rfl, by decide⟩
  | cond brs o span =>
    cases brs with
    | nil => simp [Stmt.wellFormed] at h
    | cons br brs =>
      cases br
      rw [Stmt.indented, Branch.indented]
      exact ⟨'i', _, rfl, by decide⟩

/-- The text of a line is right below any indentation. -/
theorem print_line {e : Expr} {span : Span} (h : e.wellFormed = true) (l : Layout) (g : Margins)
    (ind : List (List Char)) (w : List Char) (cut : Bool) :
    Splits ((Stmt.line e span).indented l g w cut) cut ((Stmt.line e span).Spelt ind) := by
  rw [Stmt.indented]
  refine ((l.here.line.splits cut).after (e.print l)).imp ?_
  rintro pos t k ⟨v, rfl, hv⟩
  obtain ⟨e', he, hbare⟩ := e.print_written h l pos
  exact ⟨_, .line he hv, by simp only [Stmt.bare, hbare]⟩

theorem print_do {b : Body} {span : Span} (hb : b.Printed) : Stmt.Printed (.block b span) := by
  intro h l g ind w cut hw hfit hind
  rw [Stmt.indented]
  refine ((hb h l hw hfit hind).after ['d', 'o']).imp ?_
  rintro pos t k ⟨v, rfl, b', hb', hbare⟩
  exact ⟨_, .block hb', by simp only [Stmt.bare, hbare]⟩

theorem Stmt.oneLine_cons_cons (s s' : Stmt) (ss : List Stmt) :
    Stmt.oneLine (s :: s' :: ss) = false := by
  cases s <;> rfl

/-- Consecutive statements, of which the first stands right here.  A single line can be below any
indentation. -/
theorem print_stmts {s : Stmt} {ss : List Stmt} (hss : ∀ s' ∈ s :: ss, s'.Printed)
    (hwf : ∀ s' ∈ s :: ss, s'.wellFormed = true) (l : Layout) {g : Margins} (i : Nat)
    {ind : List (List Char)} {w : List Char} {cut : Bool} (hw : Spaces w)
    (hfit : Stmt.allMarginsFit g i w (s :: ss) = true)
    (hind : Stmt.oneLine (s :: ss) = true ∨ ind.flatten = w) :
    Splits (s.indented (l.part i) (g.part i) w (cut && ss.isEmpty) ++
      Stmt.indentedAll l g (i + 1) w cut ss)
      cut fun pos t k => ∃ u v s' ss', t = u ++ v ∧ Stmt.WrittenAt ind pos u (v ++ k) s' ∧
        Lines.WrittenAt ind (pos + byteSize u) v k ss' ∧ s'.bare = s.bare ∧
        Stmt.bares ss' = Stmt.bares ss := by
  induction ss generalizing s i with
  | nil =>
    rw [Stmt.indentedAll, List.append_nil, List.isEmpty_nil, Bool.and_true]
    rw [Stmt.allMarginsFit, Bool.and_eq_true] at hfit
    have hspelt : Splits (s.indented (l.part i) (g.part i) w cut) cut (s.Spelt ind) := by
      rcases hind with hline | hind
      · cases s with
        | line e span =>
          have he : e.wellFormed = true := hwf (.line e span) (by simp)
          exact print_line he _ _ ind w cut
        | block b span => cases hline
        | cond brs o span => cases hline
      · exact hss s (by simp) (hwf s (by simp)) (l.part i) hw hfit.1 hind
    refine hspelt.imp ?_
    rintro pos t k ⟨s', hs', hbare⟩
    exact ⟨t, [], s', [], by simp, hs', .nil, hbare, rfl⟩
  | cons s₂ ss ih =>
    rw [Stmt.indentedAll, List.isEmpty_cons, Bool.and_false]
    rw [Stmt.allMarginsFit, Bool.and_eq_true] at hfit
    rw [Stmt.oneLine_cons_cons, Bool.false_eq_true, false_or] at hind
    have hfirst : Splits (s.indented (l.part i) (g.part i) w false) false (s.Spelt ind) :=
      hss s (by simp) (hwf s (by simp)) (l.part i) hw hfit.1 hind
    have hrest := ih (fun s' hs' => hss s' (List.mem_cons_of_mem s hs'))
      (fun s' hs' => hwf s' (List.mem_cons_of_mem s hs')) (i + 1) hfit.2 (Or.inr hind)
    have hsolid : Solid (s₂.indented (l.part (i + 1)) (g.part (i + 1)) w (cut && ss.isEmpty) ++
        Stmt.indentedAll l g (i + 1 + 1) w cut ss) :=
      (Stmt.indented_solid (hwf s₂ (by simp)) _ _ w _).append
    refine (hfirst.next (emptyLines_emptyText _) hw hsolid hrest).imp ?_
    rintro pos t k ⟨u, c, _, rfl, hc, ⟨s', hs', hbare⟩, u₂, v₂, s₂', ss', rfl, hs₂, hlines, hbare₂,
      hbares⟩
    rw [← hind] at hs' hs₂ hlines ⊢
    refine ⟨u, c ++ (ind.flatten ++ (u₂ ++ v₂)), s', s₂' :: ss', by simp, ?_, .cons hc hs₂ hlines,
      hbare, ?_⟩
    · simpa only [List.append_assoc] using hs'
    · simp only [Stmt.bares, hbare₂, hbares]

theorem Layout.header_eq (l : Layout) :
    ∃ a c, l.header = a ++ (c ++ l.here.line.text false) ∧ Spaces a ∧ (c = [] ∨ c = [':']) := by
  unfold Layout.header
  cases l.here.colon with
  | none => exact ⟨[], [], rfl, .nil, Or.inl rfl⟩
  | some g => exact ⟨gapText g, [':'], by simp, spaces_gapText g, Or.inr rfl⟩

theorem Margin.spaces_text (m : Margin) : Spaces m.text :=
  spaces_gapText m.blanks

theorem Margin.text_ne (m : Margin) : m.text ≠ [] :=
  gapText_ne m.blanks_ne

theorem print_body {ss : List Stmt} {span : Span} (hss : ∀ s ∈ ss, s.Printed) :
    Body.Printed (.mk ss span) := by
  intro h l g ind w cut hw hfit hind
  simp only [Body.wellFormed, Bool.and_eq_true, Stmt.allWellFormed_iff, Bool.not_eq_true',
    List.isEmpty_eq_false_iff] at h
  obtain ⟨hne, hwf⟩ := h
  obtain ⟨s, ss, rfl⟩ := List.exists_cons_of_ne_nil hne
  obtain ⟨a, c, hheader, ha, hc⟩ := l.header_eq
  simp only [Body.marginsFit, Bool.and_eq_true, Bool.or_eq_true, decide_eq_true_eq] at hfit
  obtain ⟨hmargin, hfits⟩ := hfit
  have hind' : Stmt.oneLine (s :: ss) = true ∨ (g.here.text :: ind).flatten = w ++ g.here.text := by
    rw [List.flatten_cons, hind]
    exact hmargin
  have hw' : Spaces (w ++ g.here.text) := hw.append g.here.spaces_text
  have hlines : Splits (s.indented (l.part 0) (g.part 0) (w ++ g.here.text) (cut && ss.isEmpty) ++
      Stmt.indentedAll l g (0 + 1) (w ++ g.here.text) cut ss) cut _ :=
    print_stmts hss hwf l 0 hw' hfits hind'
  have hsolid : Solid (s.indented (l.part 0) (g.part 0) (w ++ g.here.text) (cut && ss.isEmpty) ++
      Stmt.indentedAll l g (0 + 1) (w ++ g.here.text) cut ss) :=
    (Stmt.indented_solid (hwf s (by simp)) _ _ _ _).append
  have hall := (((l.here.line.splits false).next (emptyLines_emptyText (l.part 0).here.above)
    hw' hsolid hlines).after c).after a
  rw [Body.indented, Stmt.indentedAll, hheader]
  simp only [List.append_assoc] at hall ⊢
  refine hall.imp ?_
  rintro pos t k ⟨_, rfl, _, rfl, e, b, _, rfl, hb, he, u, v, s', ss', rfl, hs', hss', hbare, hbares⟩
  have hhead : Header (a ++ (c ++ (e ++ b))) (ind.flatten ++ (g.here.text ++ (u ++ v)) ++ k) := by
    refine ⟨a, c, e, b, rfl, ha, hc, ?_, hb⟩
    simpa only [hind, List.append_assoc] using he
  simp only [← hind, byteSize_append, ← Nat.add_assoc] at hs' hss'
  have hbody : Body.WrittenAt ind (pos + byteSize (a ++ (c ++ (e ++ b))))
      (ind.flatten ++ (g.here.text ++ (u ++ v))) k (.mk (s' :: ss') (.over _ _)) :=
    .mk g.here.text_ne g.here.spaces_text
      (by simpa only [byteSize_append, ← Nat.add_assoc] using hs')
      (by simpa only [byteSize_append, ← Nat.add_assoc] using hss')
  have hblock := Block.WrittenAt.mk hhead hbody
  rw [← hind]
  simp only [List.append_assoc] at hblock ⊢
  exact ⟨_, hblock, by simp only [Body.bare, Stmt.bares, hbare, hbares]⟩

/-! ### Branches -/

/-- A text of the branch that starts with the keyword, up to spans. -/
def Branch.Spelt (word : List Char) (ind : List (List Char)) (br : Branch) (pos : Nat)
    (t k : List Char) : Prop :=
  ∃ br', Branch.WrittenAt word ind pos t k br' ∧ br'.test.bare = br.test.bare ∧
    br'.body.bare = br.body.bare

theorem print_branch {br : Branch} (hb : br.body.Printed) (htest : br.test.wellFormed = true)
    (hbody : br.body.wellFormed = true) (word : List Char) (l : Layout) {g : Margins}
    {ind : List (List Char)} {w : List Char} {cut : Bool} (hw : Spaces w)
    (hfit : br.body.marginsFit (g.part 1) w = true) (hind : ind.flatten = w) :
    Splits (br.indented word l g w cut) cut (br.Spelt word ind) := by
  obtain ⟨e, b⟩ := br
  rw [Branch.indented]
  refine ((((hb hbody (l.part 1) hw hfit hind).after (e.print (l.part 0))).after
    (gapText l.here.afterWord)).after word).imp ?_
  rintro pos t k ⟨_, rfl, _, rfl, u, rfl, b', hb', hbare⟩
  obtain ⟨e', he, hbare'⟩ := e.print_written htest (l.part 0)
    (pos + byteSize word + byteSize (gapText l.here.afterWord))
  refine ⟨.mk e' b', .mk (spaces_gapText _) ?_ he hb', hbare', hbare⟩
  obtain ⟨g, gs, hg⟩ := List.exists_cons_of_ne_nil l.here.afterWord_ne
  rw [hg]
  cases g
  · exact .of_ne (by decide)
  · exact .of_ne (by decide)

theorem print_else {b : Body} (hb : b.Printed) (hwf : b.wellFormed = true) (l : Layout)
    {g : Margins} {ind : List (List Char)} {w : List Char} {cut : Bool} (hw : Spaces w)
    (hfit : b.marginsFit g w = true) (hind : ind.flatten = w) :
    Splits (['e', 'l', 's', 'e'] ++ b.indented l g w cut) cut fun pos t k => ∃ u b',
      t = ['e', 'l', 's', 'e'] ++ u ∧
      Block.WrittenAt ind (pos + byteSize ['e', 'l', 's', 'e']) u k b' ∧ b'.bare = b.bare := by
  refine ((hb hwf l hw hfit hind).after _).imp ?_
  rintro pos t k ⟨u, rfl, b', hb', hbare⟩
  exact ⟨u, b', rfl, hb', hbare⟩

theorem Branch.bares_cons {x y : Branch} {xs ys : List Branch} (htest : x.test.bare = y.test.bare)
    (hbody : x.body.bare = y.body.bare) (h : Branch.bares xs = Branch.bares ys) :
    Branch.bares (x :: xs) = Branch.bares (y :: ys) := by
  obtain ⟨e, b⟩ := x
  obtain ⟨e', b'⟩ := y
  simp only [Branch.test, Branch.body] at htest hbody
  simp only [Branch.bares, htest, hbody, h]

theorem Branch.indented_elif_solid (br : Branch) (l : Layout) (g : Margins) (w : List Char)
    (cut : Bool) : Solid (br.indented ['e', 'l', 'i', 'f'] l g w cut) := by
  obtain ⟨e, b⟩ := br
  rw [Branch.indented]
  exact ⟨'e', _, rfl, by decide⟩

theorem Branch.allMarginsFit_cons (g : Margins) (i : Nat) (w : List Char) (br : Branch)
    (brs : List Branch) : Branch.allMarginsFit g i w (br :: brs) =
      (br.body.marginsFit ((g.part i).part 1) w && Branch.allMarginsFit g (i + 1) w brs) := by
  cases br
  rw [Branch.allMarginsFit, Branch.body]

/-- A branch and all that belong to the same statement after it. -/
theorem print_branches {br : Branch} {brs : List Branch} {o : Option Body}
    (hbrs : ∀ br' ∈ br :: brs, br'.body.Printed)
    (hwf : ∀ br' ∈ br :: brs, br'.test.wellFormed = true ∧ br'.body.wellFormed = true)
    (ho : ∀ b ∈ o, b.Printed ∧ b.wellFormed = true) (word : List Char) (l lelse : Layout)
    {g gelse : Margins} (i : Nat) {ind : List (List Char)} {w : List Char} {cut : Bool}
    (hw : Spaces w) (hfits : Branch.allMarginsFit g i w (br :: brs) = true)
    (hfit : Body.noneOrMarginsFit gelse w o = true) (hind : ind.flatten = w) :
    Splits (br.indented word (l.part i) (g.part i) w (cut && brs.isEmpty && o.isNone) ++
      (Branch.indentedAll l g (i + 1) w (cut && o.isNone) brs ++
        Body.indentedElse lelse gelse w cut o))
      cut fun pos t k => ∃ u v z br' brs' o', t = u ++ (v ++ z) ∧
        Branch.WrittenAt word ind pos u (v ++ (z ++ k)) br' ∧
        Elifs.WrittenAt ind (pos + byteSize u) v (z ++ k) brs' ∧
        Else.WrittenAt ind (pos + byteSize u + byteSize v) z k o' ∧
        Branch.bares (br' :: brs') = Branch.bares (br :: brs) ∧
        Body.bareOption o' = Body.bareOption o := by
  induction brs generalizing br word i with
  | nil =>
    rw [Branch.indentedAll, List.nil_append, List.isEmpty_nil, Bool.and_true]
    rw [Branch.allMarginsFit_cons, Bool.and_eq_true] at hfits
    obtain ⟨htest, hbody⟩ := hwf br (by simp)
    cases o with
    | none =>
      rw [Body.indentedElse, List.append_nil, Option.isNone_none, Bool.and_true]
      refine (print_branch (hbrs br (by simp)) htest hbody word (l.part i) hw hfits.1 hind).imp ?_
      rintro pos t k ⟨br', hbr', ht, hb⟩
      exact ⟨t, [], [], br', [], none, by simp, hbr', .nil, .absent, Branch.bares_cons ht hb rfl, rfl⟩
    | some b =>
      rw [Body.indentedElse, Option.isNone_some, Bool.and_false]
      obtain ⟨hb, hbwf⟩ := ho b rfl
      have hfirst : Splits (br.indented word (l.part i) (g.part i) w false) false
          (br.Spelt word ind) :=
        print_branch (hbrs br (by simp)) htest hbody word (l.part i) hw hfits.1 hind
      refine (hfirst.next (emptyLines_emptyText _) hw ⟨'e', _, rfl, by decide⟩
        (print_else hb hbwf lelse hw hfit hind)).imp ?_
      rintro pos t k ⟨u, c, _, rfl, hc, ⟨br', hbr', ht, hbb⟩, v, b', rfl, hb', hbare⟩
      rw [← hind] at hbr' hb' ⊢
      refine ⟨u, [], c ++ (ind.flatten ++ (['e', 'l', 's', 'e'] ++ v)), br', [], some b', by simp,
        ?_, .nil, .present hc hb', Branch.bares_cons ht hbb rfl, ?_⟩
      · simpa only [List.nil_append, List.append_assoc] using hbr'
      · simp only [Body.bareOption, hbare]
  | cons br₂ brs ih =>
    rw [Branch.indentedAll, List.isEmpty_cons, Bool.and_false, Bool.false_and]
    rw [Branch.allMarginsFit_cons, Bool.and_eq_true] at hfits
    obtain ⟨htest, hbody⟩ := hwf br (by simp)
    have hfirst : Splits (br.indented word (l.part i) (g.part i) w false) false
        (br.Spelt word ind) :=
      print_branch (hbrs br (by simp)) htest hbody word (l.part i) hw hfits.1 hind
    have hrest := ih (fun br' h => hbrs br' (List.mem_cons_of_mem br h))
      (fun br' h => hwf br' (List.mem_cons_of_mem br h)) ['e', 'l', 'i', 'f'] (i + 1) hfits.2
    rw [Bool.and_right_comm] at hrest
    simp only [List.append_assoc]
    refine (hfirst.next (emptyLines_emptyText _) hw
      (br₂.indented_elif_solid _ _ w _).append hrest).imp ?_
    rintro pos t k ⟨u, c, _, rfl, hc, ⟨br', hbr', ht, hb⟩, u₂, v, z, br₂', brs', o', rfl, hbr₂,
      helifs, helse, hbares, ho'⟩
    rw [← hind] at hbr' hbr₂ helifs helse ⊢
    refine ⟨u, c ++ (ind.flatten ++ (u₂ ++ v)), z, br', br₂' :: brs', o', by simp, ?_,
      .cons hc hbr₂ helifs, ?_, Branch.bares_cons ht hb hbares, ho'⟩
    · simpa only [List.append_assoc] using hbr'
    · simpa only [byteSize_append, ← Nat.add_assoc] using helse

theorem print_if {brs : List Branch} {o : Option Body} {span : Span}
    (hbrs : ∀ br ∈ brs, br.body.Printed) (ho : ∀ b ∈ o, b.Printed) :
    Stmt.Printed (.cond brs o span) := by
  intro h l g ind w cut hw hfit hind
  simp only [Stmt.wellFormed, Bool.and_eq_true, Bool.not_eq_true', List.isEmpty_eq_false_iff,
    Branch.allWellFormed_iff, Body.noneOrWellFormed_iff] at h
  obtain ⟨⟨hne, hwf⟩, hwfo⟩ := h
  obtain ⟨br, brs, rfl⟩ := List.exists_cons_of_ne_nil hne
  rw [Stmt.marginsFit, Bool.and_eq_true] at hfit
  rw [Stmt.indented]
  refine (print_branches hbrs hwf (fun b hb => ⟨ho b hb, hwfo b hb⟩) ['i', 'f'] l
    (l.part (brs.length + 1)) 0 hw hfit.1 hfit.2 hind).imp ?_
  rintro pos t k ⟨u, v, z, br', brs', o', rfl, hbr, helifs, helse, hbares, hbare⟩
  refine ⟨_, .cond hbr helifs helse, ?_⟩
  simp only [Stmt.bare, hbares, hbare]

/-- A statement or a body is printed as a text of it. -/
theorem printed_cases : Stmt.Cases Stmt.Printed Body.Printed where
  line _ _ h l g ind w cut _ _ _ := print_line h l g ind w cut
  block _ _ := print_do
  cond _ _ _ := print_if
  body _ _ := print_body

/-! ### Functions and programs -/

/-- A text of the function, up to spans. -/
def FunDef.Spelt (f : FunDef) (pos : Nat) (t k : List Char) : Prop :=
  ∃ f', FunDef.WrittenAt pos t k f' ∧ f'.bare = f.bare

theorem FunDef.indented_solid (f : FunDef) (l : Layout) (g : Margins) (cut : Bool) :
    Solid (f.indented l g cut) :=
  ⟨'d', _, rfl, by decide⟩

/-- **The print of a function is a text of it.** -/
theorem FunDef.indented_written {f : FunDef} (h : f.wellFormed = true) (l : Layout) {g : Margins}
    {cut : Bool} (hfit : f.body.marginsFit (g.part 1) [] = true) :
    Splits (f.indented l g cut) cut f.Spelt := by
  obtain ⟨name, params, body, span⟩ := f
  simp only [FunDef.wellFormed, Bool.and_eq_true, List.all_eq_true] at h
  obtain ⟨⟨hname, hparams⟩, hbody⟩ := h
  have hbody' : Splits (body.indented (l.part 1) (g.part 1) [] cut) cut (body.Spelt []) :=
    printed_cases.body' body hbody (l.part 1) .nil hfit rfl
  unfold FunDef.indented
  refine (((((((hbody'.after _).after _).after _).after _).after _).after _).after _).imp ?_
  rintro pos t k ⟨_, rfl, _, rfl, _, rfl, _, rfl, _, rfl, _, rfl, u, rfl, b', hb', hbare⟩
  obtain ⟨x, hx, hbarex⟩ := name.print_written hname l
    (pos + byteSize ['d', 'e', 'f'] + byteSize (gapText l.here.afterWord))
  obtain ⟨ps, hps, hbares⟩ := (l.part 0).list_listed
    (fun (x : Ident) hx l pos => Ident.print_written (hparams x hx) l pos)
    (pos + byteSize ['d', 'e', 'f'] + byteSize (gapText l.here.afterWord) +
      byteSize (name.print l) + byteSize (gapText l.here.before) + byteSize ['('])
  refine ⟨_, .mk (gapText_ne l.here.afterWord_ne) (spaces_gapText _) hx (spaces_gapText _) hps hb', ?_⟩
  simp only [FunDef.bare, hbarex, hbares, hbare]

theorem print_defs {f : FunDef} {fs : List FunDef}
    (hwf : ∀ f' ∈ f :: fs, f'.wellFormed = true) (l : Layout) {g : Margins} (i : Nat) {cut : Bool}
    (hfits : FunDef.allMarginsFit g i (f :: fs) = true) :
    Splits (f.indented (l.part i) (g.part i) (cut && fs.isEmpty) ++
      FunDef.indentedAll l g (i + 1) cut fs) cut
      fun pos t k => ∃ u v f' fs', t = u ++ v ∧ FunDef.WrittenAt pos u (v ++ k) f' ∧
        Defs.WrittenAt (pos + byteSize u) v k fs' ∧
        (f' :: fs').map FunDef.bare = (f :: fs).map FunDef.bare := by
  induction fs generalizing f i with
  | nil =>
    rw [FunDef.indentedAll, List.append_nil, List.isEmpty_nil, Bool.and_true]
    rw [FunDef.allMarginsFit, Bool.and_eq_true] at hfits
    refine (FunDef.indented_written (hwf f (by simp)) (l.part i) hfits.1).imp ?_
    rintro pos t k ⟨f', hf', hbare⟩
    exact ⟨t, [], f', [], by simp, hf', .nil, by simp [hbare]⟩
  | cons f₂ fs ih =>
    rw [FunDef.indentedAll, List.isEmpty_cons, Bool.and_false]
    rw [FunDef.allMarginsFit, Bool.and_eq_true] at hfits
    have hfirst : Splits (f.indented (l.part i) (g.part i) false) false f.Spelt :=
      FunDef.indented_written (hwf f (by simp)) (l.part i) hfits.1
    have hrest := ih (fun f' h => hwf f' (List.mem_cons_of_mem f h)) (i + 1) hfits.2
    refine (hfirst.next (g := []) (emptyLines_emptyText _) .nil (f₂.indented_solid _ _ _).append
      hrest).imp ?_
    rintro pos t k ⟨u, c, _, rfl, hc, ⟨f', hf', hbare⟩, u₂, v, f₂', fs', rfl, hf₂, hdefs, hbares⟩
    refine ⟨u, c ++ (u₂ ++ v), f', f₂' :: fs', by simp, ?_, .cons hc hf₂ hdefs, ?_⟩
    · simpa only [List.nil_append, List.append_assoc] using hf'
    · rw [List.map_cons, hbare, hbares]
      rfl

/-- What comes after the last line of code. -/
theorem Ending.rest (ending : Ending) :
    ∃ b z, ending.text = b ++ z ∧ LastLine z ∧ Rest ending.isCut b z := by
  cases ending with
  | cut =>
    have hz : LastLine [] := ⟨[], [], rfl, .nil, Or.inl rfl⟩
    exact ⟨[], [], rfl, hz, .nil, .of_lastLine hz, fun _ => ⟨rfl, rfl⟩⟩
  | tail ls g r =>
    have hz : LastLine (gapText g ++ remarkText r) :=
      ⟨_, _, rfl, spaces_gapText g, comment_remarkText r⟩
    exact ⟨_, _, rfl, hz, emptyLines_emptyText ls, .of_lastLine hz, fun h => by cases h⟩

/-- **The print of a program is a text of it**, where the margins of its bodies go together. -/
theorem Program.indented_written {p : Program} (h : p.wellFormed = true) (l : Layout) {g : Margins}
    (hfit : p.marginsFit g = true) (ending : Ending) :
    ∃ q, Program.Written (p.indented l g ending) q ∧ q.bare = p.bare := by
  obtain ⟨funs, span⟩ := p
  simp only [Program.wellFormed, Bool.and_eq_true, Bool.not_eq_true', List.isEmpty_eq_false_iff,
    List.all_eq_true] at h
  obtain ⟨hne, hwf⟩ := h
  obtain ⟨f, fs, rfl⟩ := List.exists_cons_of_ne_nil hne
  obtain ⟨b, z, hending, hz, hrest⟩ := ending.rest
  obtain ⟨t, c, heq, hc, u, v, f', fs', rfl, hf, hfs, hbares⟩ :=
    print_defs hwf l 0 hfit (0 + byteSize (emptyText (l.part 0).here.above)) hrest
  have hprint : Program.indented l g ending ⟨f :: fs, span⟩ =
      (emptyText (l.part 0).here.above ++ (u ++ v)) ++ (c ++ z) := by
    calc Program.indented l g ending ⟨f :: fs, span⟩
        = emptyText (l.part 0).here.above ++
            ((f.indented (l.part 0) (g.part 0) (ending.isCut && fs.isEmpty) ++
              FunDef.indentedAll l g (0 + 1) ending.isCut fs) ++ b) ++ z := by
          rw [Program.indented, FunDef.indentedAll, hending]
          simp
      _ = (emptyText (l.part 0).here.above ++ (u ++ v)) ++ (c ++ z) := by
          rw [heq]
          simp
  have hdefs : Defs.WrittenAt 0 (emptyText (l.part 0).here.above ++ (u ++ v)) (c ++ z) (f' :: fs') :=
    .cons (emptyLines_emptyText _) hf hfs
  refine ⟨⟨f' :: fs', .over 0 _⟩, ⟨_, c, z, hprint, hdefs, by simp, hc, hz, rfl⟩, ?_⟩
  simp only [Program.bare, hbares]

/-- The print of a program with one kind of blank is a text of it. -/
theorem Program.print_written {p : Program} (h : p.wellFormed = true) (blank : Blank) (l : Layout)
    (ending : Ending) : ∃ q, Program.Written (p.print blank l ending) q ∧ q.bare = p.bare := by
  rw [← Program.indented_uniform]
  exact p.indented_written h l (p.marginsFit_uniform l) ending

end Offside
