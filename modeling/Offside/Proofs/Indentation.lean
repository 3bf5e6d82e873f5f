import Offside.Proofs.RoundTrip
import Offside.Sample

/-!
# Which indentation is understood

A program can be printed with any margins for its bodies.  It is understood, as the program that it
is, if and only if these margins go together (`Program.marginsFit`).

One direction is `Program.indented_written`.  For the other one, a reading of the print as the same
program is compared with the print, part by part.  Two readings of a text that start at the same place
take the same part of it, as far as indentation has no say; what remains is that the blanks at the
start of a line are both the printed indentation and the remembered one.

* parts of a text that are the only ones: `EmptyLines.unique`, `Expr.print_unique`, `Header.unique`;
* what a reading of a print says of the margins: `Stmt.Forced`, `Body.Forced`, `forced_cases`;
* **which indentation is understood**: `Program.parse_indented_iff`.
-/

namespace Offside

open Text Pattern

/-! ### Parts that are the only ones -/

theorem EmptyLines.unique {c c' r r' : List Char} (hc : EmptyLines c) (hc' : EmptyLines c')
    (hr : NoEmptyLine r) (hr' : NoEmptyLine r') (heq : c ++ r = c' ++ r') : c = c' ∧ r = r' := by
  have h₁ : (star blank).Takes [] 0 c r [] := takes_blanks_iff.mpr ⟨rfl, hc, hr⟩
  have h₂ : (star blank).Takes [] 0 c' r' [] := takes_blanks_iff.mpr ⟨rfl, hc', hr'⟩
  obtain ⟨hcc, hrr, -⟩ := h₁.unique h₂ heq
  exact ⟨hcc, hrr⟩

/-- The blanks before code are the only ones. -/
theorem Spaces.unique {g g' x x' : List Char} (hg : Spaces g) (hg' : Spaces g') (hx : Solid x)
    (hx' : Solid x') (heq : g ++ x = g' ++ x') : g = g' ∧ x = x' :=
  hx.stops_space.unique hx'.stops_space hg hg' heq

theorem LineEnd.unique {v v' k k' : List Char} (h : LineEnd v k) (h' : LineEnd v' k')
    (heq : v ++ k = v' ++ k') : v = v' ∧ k = k' := by
  have h₁ : eol.Takes [] 0 v k [] := takes_eol_iff.mpr ⟨rfl, h⟩
  have h₂ : eol.Takes [] 0 v' k' [] := takes_eol_iff.mpr ⟨rfl, h'⟩
  obtain ⟨hv, hk, -⟩ := h₁.unique h₂ heq
  exact ⟨hv, hk⟩

/-- The rest of a header line, with the lines without code below it, is the only one. -/
theorem Header.unique {h h' k k' : List Char} (hh : Header h k) (hh' : Header h' k')
    (hk : NoEmptyLine k) (hk' : NoEmptyLine k') (heq : h ++ k = h' ++ k') : k = k' := by
  have h₁ : (all [sp, opt (char ':'), eol, star blank]).Takes [] 0 h k [] := takes_header hh hk
  have h₂ : (all [sp, opt (char ':'), eol, star blank]).Takes [] 0 h' k' [] := takes_header hh' hk'
  exact (h₁.unique h₂ heq).2.1

/-- The print of an expression is the only text of an expression there. -/
theorem Expr.print_unique {e e' : Expr} (h : e.wellFormed = true) (l : Layout) {pos : Nat}
    {t k r : List Char} (he : e'.WrittenAt pos t) (hr : Delimited r) (hk : Delimited k)
    (heq : e.print l ++ r = t ++ k) : r = k := by
  obtain ⟨e'', he'', -⟩ := e.print_written h l pos
  obtain ⟨m, hm, -⟩ := he.takes [] hk
  obtain ⟨m', hm', -⟩ := he''.takes [] hr
  exact (hm'.unique hm heq).2.1

theorem LineStyle.delimited (l : LineStyle) (k : List Char) : Delimited (l.text false ++ k) := by
  unfold LineStyle.text
  rw [List.append_assoc]
  refine .spaces (spaces_gapText _) ?_
  cases l.remark with
  | none => cases l.newline <;> exact .of_cons (by decide)
  | some r => exact .of_cons (by decide)

theorem Layout.header_delimited (l : Layout) (k : List Char) : Delimited (l.header ++ k) := by
  obtain ⟨a, c, heq, ha, rfl | rfl⟩ := l.header_eq
  · rw [heq, List.append_assoc]
    exact .spaces ha (l.here.line.delimited k)
  · rw [heq, List.append_assoc]
    exact .spaces ha (.of_cons (by decide))

/-! ### What comes after a part -/

/-- The text `r`, after some lines without code. -/
def After (r k : List Char) : Prop :=
  ∃ c, k = c ++ r ∧ EmptyLines c

/-- The next line of code starts with the same blanks for print and reading. -/
theorem After.line {w x c g y : List Char} (h : After (w ++ x) (c ++ (g ++ y))) (hw : Spaces w)
    (hx : Solid x) (hc : EmptyLines c) (hg : Spaces g) (hy : Solid y) : w = g ∧ x = y := by
  obtain ⟨c', heq, hc'⟩ := h
  obtain ⟨-, hline⟩ := hc.unique hc' (.of_solid hg hy) (.of_solid hw hx) heq
  exact hw.unique hg hx hy hline.symm

/-- The end of a printed line, and what comes after it. -/
theorem LineStyle.after {l : LineStyle} {cut : Bool} {b r v k : List Char} (hrest : Rest cut b r)
    (hv : LineEnd v k) (heq : l.text cut ++ (b ++ r) = v ++ k) : After r k := by
  obtain ⟨v', c, hsplit, hc, hv'⟩ := l.splits cut 0 hrest
  rw [← List.append_assoc, hsplit, List.append_assoc] at heq
  obtain ⟨-, hk⟩ := hv'.unique hv heq
  exact ⟨c, hk.symm, hc⟩

/-- The end of a printed line ends an expression. -/
theorem Rest.delimited {l : LineStyle} {cut : Bool} {b r : List Char} (hrest : Rest cut b r) :
    Delimited (l.text cut ++ (b ++ r)) := by
  obtain ⟨v, c, hsplit, -, hv⟩ := l.splits cut 0 hrest
  rw [← List.append_assoc, hsplit, List.append_assoc]
  exact hv.delimited

/-- The first line of code below a printed header. -/
theorem Layout.header_unique {l : Layout} {b w x h g y : List Char} (hb : EmptyLines b)
    (hw : Spaces w) (hx : Solid x) (hh : Header h (g ++ y)) (hg : Spaces g) (hy : Solid y)
    (heq : l.header ++ (b ++ (w ++ x)) = h ++ (g ++ y)) : w = g ∧ x = y := by
  obtain ⟨a, c, hheader, ha, hc⟩ := l.header_eq
  have hcode : NoEmptyLine (w ++ x) := .of_solid hw hx
  obtain ⟨v, d, hsplit, hd, hv⟩ := l.here.line.splits false 0 (.of_line hb hw hx)
  have hprinted : Header (a ++ (c ++ (v ++ d))) (w ++ x) := ⟨a, c, v, d, rfl, ha, hc, hv, hd⟩
  have htext : l.header ++ (b ++ (w ++ x)) = a ++ (c ++ (v ++ d)) ++ (w ++ x) := by
    rw [hheader, ← hsplit]
    simp
  rw [htext] at heq
  exact hw.unique hg hx hy (hprinted.unique hh hcode (.of_solid hg hy) heq)

/-! ### What a reading of a print says of the margins -/

/-- Remembered indentations that are as long as the printed one. -/
structure Below (ind : List (List Char)) (w : List Char) : Prop where
  printed : Spaces w
  remembered : ∀ x ∈ ind, Spaces x
  length_eq : ind.flatten.length = w.length

theorem Below.spaces {ind : List (List Char)} {w : List Char} (h : Below ind w) :
    Spaces ind.flatten :=
  .flatten h.remembered

/-- A statement whose print can be read as that statement only if its margins go together, and below
the printed indentation unless it is a line. -/
def Stmt.Forced (s : Stmt) : Prop :=
  s.wellFormed = true → ∀ {l : Layout} {g : Margins} {ind : List (List Char)} {w b r t k : List Char}
    {cut : Bool} {pos : Nat} {s' : Stmt}, Below ind w → Rest cut b r →
    Stmt.WrittenAt ind pos t k s' → s'.bare = s.bare →
    s.indented l g w cut ++ (b ++ r) = t ++ k →
    After r k ∧ s.marginsFit g w = true ∧ (Stmt.oneLine [s] = true ∨ ind.flatten = w)

/-- A body whose print can be read as that body only if its margins go together, and below the printed
indentation. -/
def Body.Forced (body : Body) : Prop :=
  body.wellFormed = true → ∀ {l : Layout} {g : Margins} {ind : List (List Char)}
    {w b r t k : List Char} {cut : Bool} {pos : Nat} {body' : Body}, Below ind w → Rest cut b r →
    Block.WrittenAt ind pos t k body' → body'.bare = body.bare →
    body.indented l g w cut ++ (b ++ r) = t ++ k →
    After r k ∧ body.marginsFit g w = true ∧ ind.flatten = w

theorem forced_line {e : Expr} {span : Span} : Stmt.Forced (.line e span) := by
  intro h l g ind w b r t k cut pos s' _ hrest hs hbare heq
  cases hs with
  | line he hv =>
    rw [Stmt.indented, List.append_assoc, List.append_assoc] at heq
    have hline := e.print_unique h l he hrest.delimited hv.delimited heq
    exact ⟨LineStyle.after hrest hv hline, rfl, Or.inl rfl⟩
  | block _ => simp [Stmt.bare] at hbare
  | cond _ _ _ => simp [Stmt.bare] at hbare

theorem forced_do {body : Body} {span : Span} (hbody : body.Forced) :
    Stmt.Forced (.block body span) := by
  intro h l g ind w b r t k cut pos s' hbelow hrest hs hbare heq
  cases hs with
  | line _ _ => simp [Stmt.bare] at hbare
  | block hblock =>
    rw [Stmt.indented, List.append_assoc, List.append_assoc] at heq
    simp only [Stmt.bare, Stmt.block.injEq, and_true] at hbare
    obtain ⟨hafter, hfit, hind⟩ :=
      hbody h hbelow hrest hblock hbare (List.append_cancel_left heq)
    exact ⟨hafter, hfit, Or.inr hind⟩
  | cond _ _ _ => simp [Stmt.bare] at hbare

/-- Consecutive statements, of which the first stands right here. -/
theorem forced_stmts {s : Stmt} {ss : List Stmt} (hss : ∀ s' ∈ s :: ss, s'.Forced)
    (hwf : ∀ s' ∈ s :: ss, s'.wellFormed = true) {l : Layout} {g : Margins} {i : Nat}
    {ind : List (List Char)} {w b r t v k : List Char} {cut : Bool} {pos pos' : Nat} {s' : Stmt}
    {ss' : List Stmt} (hbelow : Below ind w) (hrest : Rest cut b r)
    (hs : Stmt.WrittenAt ind pos t (v ++ k) s') (hlines : Lines.WrittenAt ind pos' v k ss')
    (hbare : s'.bare = s.bare) (hbares : Stmt.bares ss' = Stmt.bares ss)
    (heq : s.indented (l.part i) (g.part i) w (cut && ss.isEmpty) ++
      (Stmt.indentedAll l g (i + 1) w cut ss ++ (b ++ r)) = t ++ (v ++ k)) :
    After r k ∧ Stmt.allMarginsFit g i w (s :: ss) = true ∧
      (Stmt.oneLine (s :: ss) = true ∨ ind.flatten = w) := by
  induction ss generalizing s i pos pos' t v s' ss' with
  | nil =>
    rw [List.isEmpty_nil, Bool.and_true, Stmt.indentedAll, List.nil_append] at heq
    cases hlines with
    | nil =>
      obtain ⟨hafter, hfit, hind⟩ := hss s (by simp) (hwf s (by simp)) hbelow hrest hs hbare heq
      refine ⟨hafter, ?_, hind⟩
      rw [Stmt.allMarginsFit, hfit, Stmt.allMarginsFit, Bool.and_true]
    | cons _ _ _ => simp [Stmt.bares] at hbares
  | cons s₂ ss ih =>
    cases hlines with
    | nil => simp [Stmt.bares] at hbares
    | @cons _ _ s₂' ss' c u v _ hc hs₂ hlines =>
      rw [List.isEmpty_cons, Bool.and_false, Stmt.indentedAll] at heq
      simp only [List.append_assoc] at heq
      simp only [Stmt.bares, List.cons.injEq] at hbares
      have hsolid : Solid (s₂.indented (l.part (i + 1)) (g.part (i + 1)) w (cut && ss.isEmpty) ++
          (Stmt.indentedAll l g (i + 1 + 1) w cut ss ++ (b ++ r))) :=
        (Stmt.indented_solid (hwf s₂ (by simp)) _ _ w _).append
      simp only [List.append_assoc] at hs
      obtain ⟨hafter, hfit, -⟩ := hss s (by simp) (hwf s (by simp)) hbelow
        (.of_line (emptyLines_emptyText _) hbelow.printed hsolid) hs hbare heq
      -- The next line is printed below `w` and read below the remembered indentation.
      obtain ⟨hind, htext⟩ :=
        hafter.line hbelow.printed hsolid hc hbelow.spaces hs₂.solid.append
      obtain ⟨hafter', hfits, -⟩ := ih (fun s' hs' => hss s' (List.mem_cons_of_mem s hs'))
        (fun s' hs' => hwf s' (List.mem_cons_of_mem s hs')) hs₂ hlines hbares.1 hbares.2 htext
      refine ⟨hafter', ?_, Or.inr hind.symm⟩
      rw [Stmt.allMarginsFit, hfit, hfits, Bool.and_true]

/-- **A body:** its first line starts with the printed indentation and its own margin, read in this
order, and further lines are read in the other one. -/
theorem forced_body {ss : List Stmt} {span : Span} (hss : ∀ s ∈ ss, s.Forced) :
    Body.Forced (.mk ss span) := by
  intro h l g ind w b r t k cut pos body' hbelow hrest hblock hbare heq
  simp only [Body.wellFormed, Bool.and_eq_true, Stmt.allWellFormed_iff, Bool.not_eq_true',
    List.isEmpty_eq_false_iff] at h
  obtain ⟨hne, hwf⟩ := h
  obtain ⟨s, ss, rfl⟩ := List.exists_cons_of_ne_nil hne
  cases hblock with
  | @mk _ _ _ h u _ hheader hbody =>
    cases hbody with
    | @mk _ _ s' ss' own u v _ hown hownSpaces hs hlines =>
      rw [Body.indented, Stmt.indentedAll] at heq
      simp only [List.append_assoc] at heq hheader
      simp only [Body.bare, Stmt.bares, Body.mk.injEq, List.cons.injEq, and_true] at hbare
      have hsolid : Solid (s.indented (l.part 0) (g.part 0) (w ++ g.here.text) (cut && ss.isEmpty) ++
          (Stmt.indentedAll l g (0 + 1) (w ++ g.here.text) cut ss ++ (b ++ r))) :=
        (Stmt.indented_solid (hwf s (by simp)) _ _ _ _).append
      have hmargin : Spaces (w ++ g.here.text) := hbelow.printed.append g.here.spaces_text
      rw [← List.append_assoc ind.flatten] at heq hheader
      rw [← List.append_assoc w] at heq
      obtain ⟨hline, htext⟩ := Layout.header_unique (emptyLines_emptyText _) hmargin hsolid hheader
        (hbelow.spaces.append hownSpaces) hs.solid.append heq
      -- Both indentations are equally long, so the own margins are the same as well.
      obtain ⟨hind, rfl⟩ := List.append_inj hline hbelow.length_eq.symm
      have hbelow' : Below (g.here.text :: ind) (w ++ g.here.text) := by
        refine ⟨hmargin, List.forall_mem_cons.mpr ⟨hownSpaces, hbelow.remembered⟩, ?_⟩
        rw [List.flatten_cons, ← hind]
        simp only [List.length_append]
        omega
      obtain ⟨hafter, hfits, hlast⟩ :=
        forced_stmts hss hwf hbelow' hrest hs hlines hbare.1 hbare.2 htext
      refine ⟨hafter, ?_, hind.symm⟩
      rw [List.flatten_cons, ← hind] at hlast
      simpa [Body.marginsFit, hfits] using hlast

/-! ### Branches -/

theorem forced_branch {br : Branch} (hb : br.body.Forced) (htest : br.test.wellFormed = true)
    (hbody : br.body.wellFormed = true) {word : List Char} {l : Layout} {g : Margins}
    {ind : List (List Char)} {w b r t k : List Char} {cut : Bool} {pos : Nat} {br' : Branch}
    (hbelow : Below ind w) (hrest : Rest cut b r) (hbr : Branch.WrittenAt word ind pos t k br')
    (hbare : br'.body.bare = br.body.bare)
    (heq : br.indented word l g w cut ++ (b ++ r) = t ++ k) :
    After r k ∧ br.body.marginsFit (g.part 1) w = true ∧ ind.flatten = w := by
  obtain ⟨e, body⟩ := br
  cases hbr with
  | @mk _ _ _ e' body' a t u _ ha hstop he hblock =>
    rw [Branch.indented] at heq
    simp only [List.append_assoc] at heq
    obtain ⟨-, htext⟩ := Spaces.unique (spaces_gapText _) ha
      (e.print_solid htest (l.part 0)).append he.solid.append (List.append_cancel_left heq)
    obtain ⟨ss, span⟩ := body
    have hdelimited :
        Delimited (Body.indented (l.part 1) (g.part 1) w cut (.mk ss span) ++ (b ++ r)) := by
      rw [Body.indented, List.append_assoc]
      exact (l.part 1).header_delimited _
    have hrest' := e.print_unique htest (l.part 0) he hdelimited hblock.delimited htext
    exact hb hbody hbelow hrest hblock hbare hrest'

theorem Branch.of_bares_cons {x y : Branch} {xs ys : List Branch}
    (h : Branch.bares (x :: xs) = Branch.bares (y :: ys)) :
    x.body.bare = y.body.bare ∧ Branch.bares xs = Branch.bares ys := by
  obtain ⟨e, b⟩ := x
  obtain ⟨e', b'⟩ := y
  simp only [Branch.bares, List.cons.injEq, Branch.mk.injEq] at h
  exact ⟨h.1.2, h.2⟩

theorem Branch.bares_eq_nil_iff {brs : List Branch} : Branch.bares brs = [] ↔ brs = [] := by
  cases brs with
  | nil => simp [Branch.bares]
  | cons br brs =>
    cases br
    simp [Branch.bares]

/-- A branch and the `else` branch after it, if there is one. -/
theorem forced_lastBranch {br : Branch} {o : Option Body} (hb : br.body.Forced)
    (hwf : br.test.wellFormed = true ∧ br.body.wellFormed = true)
    (ho : ∀ b ∈ o, b.Forced ∧ b.wellFormed = true) {word : List Char} {l lelse : Layout}
    {g gelse : Margins} {ind : List (List Char)} {w b r t v k : List Char} {cut : Bool}
    {pos pos' : Nat} {br' : Branch} {o' : Option Body} (hbelow : Below ind w)
    (hrest : Rest cut b r) (hbr : Branch.WrittenAt word ind pos t (v ++ k) br')
    (helse : Else.WrittenAt ind pos' v k o') (hbare : br'.body.bare = br.body.bare)
    (hbareOption : Body.bareOption o' = Body.bareOption o)
    (heq : br.indented word l g w (cut && o.isNone) ++
      (Body.indentedElse lelse gelse w cut o ++ (b ++ r)) = t ++ (v ++ k)) :
    After r k ∧ br.body.marginsFit (g.part 1) w = true ∧
      Body.noneOrMarginsFit gelse w o = true ∧ ind.flatten = w := by
  cases helse with
  | absent =>
    cases o with
    | some body => cases hbareOption
    | none =>
      rw [Option.isNone_none, Bool.and_true, Body.indentedElse, List.nil_append] at heq
      obtain ⟨hafter, hfit, hind⟩ := forced_branch hb hwf.1 hwf.2 hbelow hrest hbr hbare heq
      exact ⟨hafter, hfit, rfl, hind⟩
  | @present _ _ body' c u _ hc hblock =>
    cases o with
    | none => cases hbareOption
    | some body =>
      rw [Option.isNone_some, Bool.and_false, Body.indentedElse] at heq
      simp only [List.append_assoc] at heq hbr
      obtain ⟨hbody, hbodywf⟩ := ho body rfl
      have hsolid : ∀ x : List Char, Solid (['e', 'l', 's', 'e'] ++ x) :=
        fun x => ⟨'e', _, rfl, by decide⟩
      obtain ⟨hafter, hfit, hind⟩ := forced_branch hb hwf.1 hwf.2 hbelow
        (.of_line (emptyLines_emptyText _) hbelow.printed (hsolid _)) hbr hbare heq
      obtain ⟨-, htext⟩ := hafter.line hbelow.printed (hsolid _) hc hbelow.spaces (hsolid _)
      simp only [Body.bareOption, Option.some.injEq] at hbareOption
      obtain ⟨hafter', hfit', -⟩ :=
        hbody hbodywf hbelow hrest hblock hbareOption (List.append_cancel_left htext)
      exact ⟨hafter', hfit, hfit', hind⟩

/-- A branch and all that belong to the same statement after it. -/
theorem forced_branches {br : Branch} {brs : List Branch} {o : Option Body}
    (hbrs : ∀ br' ∈ br :: brs, br'.body.Forced)
    (hwf : ∀ br' ∈ br :: brs, br'.test.wellFormed = true ∧ br'.body.wellFormed = true)
    (ho : ∀ b ∈ o, b.Forced ∧ b.wellFormed = true) {word : List Char} {l lelse : Layout}
    {g gelse : Margins} {i : Nat} {ind : List (List Char)} {w b r t u v k : List Char} {cut : Bool}
    {pos pos₁ pos₂ : Nat} {br' : Branch} {brs' : List Branch} {o' : Option Body}
    (hbelow : Below ind w) (hrest : Rest cut b r)
    (hbr : Branch.WrittenAt word ind pos t (u ++ (v ++ k)) br')
    (helifs : Elifs.WrittenAt ind pos₁ u (v ++ k) brs') (helse : Else.WrittenAt ind pos₂ v k o')
    (hbares : Branch.bares (br' :: brs') = Branch.bares (br :: brs))
    (hbareOption : Body.bareOption o' = Body.bareOption o)
    (heq : br.indented word (l.part i) (g.part i) w (cut && brs.isEmpty && o.isNone) ++
      (Branch.indentedAll l g (i + 1) w (cut && o.isNone) brs ++
        (Body.indentedElse lelse gelse w cut o ++ (b ++ r))) = t ++ (u ++ (v ++ k))) :
    After r k ∧ Branch.allMarginsFit g i w (br :: brs) = true ∧
      Body.noneOrMarginsFit gelse w o = true ∧ ind.flatten = w := by
  induction brs generalizing br word i pos pos₁ t u br' brs' with
  | nil =>
    obtain ⟨hbare, hnil⟩ := Branch.of_bares_cons hbares
    obtain rfl := Branch.bares_eq_nil_iff.mp hnil
    cases helifs
    rw [List.isEmpty_nil, Bool.and_true, Branch.indentedAll, List.nil_append, List.nil_append] at heq
    rw [List.nil_append] at hbr
    obtain ⟨hafter, hfit, hfitElse, hind⟩ := forced_lastBranch (hbrs br (by simp))
      (hwf br (by simp)) ho hbelow hrest hbr helse hbare hbareOption heq
    refine ⟨hafter, ?_, hfitElse, hind⟩
    rw [Branch.allMarginsFit_cons, hfit, Branch.allMarginsFit, Bool.and_true]
  | cons br₂ brs ih =>
    obtain ⟨hbare, hbares'⟩ := Branch.of_bares_cons hbares
    cases helifs with
    | nil => cases Branch.bares_eq_nil_iff.mp hbares'.symm
    | @cons _ _ br₂' brs' c t₂ u _ hc hbr₂ helifs =>
      rw [List.isEmpty_cons, Bool.and_false, Bool.false_and, Branch.indentedAll] at heq
      simp only [List.append_assoc] at heq hbr
      obtain ⟨htest, hbody⟩ := hwf br (by simp)
      have hsolid : Solid (br₂.indented ['e', 'l', 'i', 'f'] (l.part (i + 1)) (g.part (i + 1)) w
          (cut && o.isNone && brs.isEmpty) ++ (Branch.indentedAll l g (i + 1 + 1) w
          (cut && o.isNone) brs ++ (Body.indentedElse lelse gelse w cut o ++ (b ++ r)))) :=
        (br₂.indented_elif_solid _ _ w _).append
      have hsolid' : Solid (t₂ ++ (u ++ (v ++ k))) := by
        cases hbr₂
        exact ⟨'e', _, rfl, by decide⟩
      obtain ⟨hafter, hfit, -⟩ := forced_branch (hbrs br (by simp)) htest hbody hbelow
        (.of_line (emptyLines_emptyText _) hbelow.printed hsolid) hbr hbare heq
      obtain ⟨-, htext⟩ := hafter.line hbelow.printed hsolid hc hbelow.spaces hsolid'
      rw [Bool.and_right_comm] at htext
      obtain ⟨hafter', hfits, hfitElse, hind⟩ := ih
        (fun br' h => hbrs br' (List.mem_cons_of_mem br h))
        (fun br' h => hwf br' (List.mem_cons_of_mem br h)) hbr₂ helifs hbares' htext
      refine ⟨hafter', ?_, hfitElse, hind⟩
      rw [Branch.allMarginsFit_cons, hfit, hfits, Bool.and_true]

theorem forced_if {brs : List Branch} {o : Option Body} {span : Span}
    (hbrs : ∀ br ∈ brs, br.body.Forced) (ho : ∀ b ∈ o, b.Forced) :
    Stmt.Forced (.cond brs o span) := by
  intro h l g ind w b r t k cut pos s' hbelow hrest hs hbare heq
  simp only [Stmt.wellFormed, Bool.and_eq_true, Bool.not_eq_true', List.isEmpty_eq_false_iff,
    Branch.allWellFormed_iff, Body.noneOrWellFormed_iff] at h
  obtain ⟨⟨hne, hwf⟩, hwfo⟩ := h
  obtain ⟨br, brs, rfl⟩ := List.exists_cons_of_ne_nil hne
  cases hs with
  | line _ _ => simp [Stmt.bare] at hbare
  | block _ => simp [Stmt.bare] at hbare
  | cond hbr helifs helse =>
    simp only [Stmt.bare, Stmt.cond.injEq, and_true] at hbare
    rw [Stmt.indented] at heq
    simp only [List.append_assoc] at heq
    obtain ⟨hafter, hfits, hfit, hind⟩ := forced_branches hbrs hwf
      (fun b hb => ⟨ho b hb, hwfo b hb⟩) hbelow hrest hbr helifs helse hbare.1 hbare.2 heq
    refine ⟨hafter, ?_, Or.inr hind⟩
    rw [Stmt.marginsFit, hfits, Bool.true_and]
    exact hfit

/-- What a reading of the print of a statement or a body says of the margins. -/
theorem forced_cases : Stmt.Cases Stmt.Forced Body.Forced where
  line _ _ := forced_line
  block _ _ := forced_do
  cond _ _ _ := forced_if
  body _ _ := forced_body

/-! ### Functions and programs -/

/-- The print of a signature is the only signature there. -/
theorem FunDef.signature_unique {f f' : FunDef} (hname : f.name.wellFormed = true)
    (hparams : ∀ x ∈ f.params, x.wellFormed = true) (l : Layout) {pos : Nat} {t r k : List Char}
    (hf : FunDef.WrittenAt pos t k f')
    (heq : ['d', 'e', 'f'] ++ (gapText l.here.afterWord ++ (f.name.print l ++
      (gapText l.here.before ++ (['('] ++ ((l.part 0).list ((l.part 0).texts Ident.print 0 f.params)
        ++ ([')'] ++ r)))))) = t ++ k) :
    ∃ pos' u, Block.WrittenAt [] pos' u k f'.body ∧ r = u ++ k := by
  cases hf with
  | @mk x ps body g t a lst u _ hg hgs hx ha hps hblock =>
    obtain ⟨x', hx', -⟩ := f.name.print_written hname l
      (pos + byteSize ['d', 'e', 'f'] + byteSize (gapText l.here.afterWord))
    obtain ⟨ps', hps', -⟩ := (l.part 0).list_listed
      (fun (x : Ident) hx l pos => Ident.print_written (hparams x hx) l pos)
      (pos + byteSize ['d', 'e', 'f'] + byteSize (gapText l.here.afterWord) +
        byteSize (f.name.print l) + byteSize (gapText l.here.before) + byteSize ['('])
    obtain ⟨_, _, _, _, hread, -⟩ := takes_signature hg hgs hx ha hps (u ++ k)
    obtain ⟨_, _, _, _, hprint, -⟩ := takes_signature (gapText_ne l.here.afterWord_ne)
      (spaces_gapText _) hx' (spaces_gapText _) hps' r
    refine ⟨_, u, hblock, (hprint.unique hread ?_).2.1⟩
    simpa only [List.append_assoc] using heq

theorem FunDef.forced {f f' : FunDef} (h : f.wellFormed = true) {l : Layout} {g : Margins}
    {b r t k : List Char} {cut : Bool} {pos : Nat} (hrest : Rest cut b r)
    (hf : FunDef.WrittenAt pos t k f') (hbare : f'.bare = f.bare)
    (heq : f.indented l g cut ++ (b ++ r) = t ++ k) :
    After r k ∧ f.body.marginsFit (g.part 1) [] = true := by
  simp only [FunDef.wellFormed, Bool.and_eq_true, List.all_eq_true] at h
  obtain ⟨⟨hname, hparams⟩, hbody⟩ := h
  rw [FunDef.indented] at heq
  simp only [List.append_assoc] at heq
  obtain ⟨pos', u, hblock, htext⟩ := FunDef.signature_unique hname hparams l hf heq
  simp only [FunDef.bare, FunDef.mk.injEq] at hbare
  obtain ⟨hafter, hfit, -⟩ := forced_cases.body' f.body hbody ⟨.nil, by simp, rfl⟩ hrest hblock
    hbare.2.2.1 htext
  exact ⟨hafter, hfit⟩

theorem forced_defs {f : FunDef} {fs : List FunDef} (hwf : ∀ f' ∈ f :: fs, f'.wellFormed = true)
    {l : Layout} {g : Margins} {i : Nat} {b r t v k : List Char} {cut : Bool} {pos pos' : Nat}
    {f' : FunDef} {fs' : List FunDef} (hrest : Rest cut b r)
    (hf : FunDef.WrittenAt pos t (v ++ k) f') (hdefs : Defs.WrittenAt pos' v k fs')
    (hbares : (f' :: fs').map FunDef.bare = (f :: fs).map FunDef.bare)
    (heq : f.indented (l.part i) (g.part i) (cut && fs.isEmpty) ++
      (FunDef.indentedAll l g (i + 1) cut fs ++ (b ++ r)) = t ++ (v ++ k)) :
    FunDef.allMarginsFit g i (f :: fs) = true := by
  induction fs generalizing f i pos pos' t v f' fs' with
  | nil =>
    rw [List.isEmpty_nil, Bool.and_true, FunDef.indentedAll, List.nil_append] at heq
    simp only [List.map_cons, List.map_nil, List.cons.injEq] at hbares
    obtain ⟨-, hfit⟩ := FunDef.forced (hwf f (by simp)) hrest hf hbares.1 heq
    rw [FunDef.allMarginsFit, hfit, FunDef.allMarginsFit, Bool.and_true]
  | cons f₂ fs ih =>
    cases hdefs with
    | nil => simp at hbares
    | @cons _ f₂' fs' c t₂ v _ hc hf₂ hdefs =>
      obtain ⟨hbare, hbares⟩ := List.cons_eq_cons.mp hbares
      rw [List.isEmpty_cons, Bool.and_false, FunDef.indentedAll] at heq
      simp only [List.append_assoc] at heq hf
      have hsolid : ∀ {x}, Solid
          (f₂.indented (l.part (i + 1)) (g.part (i + 1)) (cut && fs.isEmpty) ++ x) :=
        (f₂.indented_solid _ _ _).append
      obtain ⟨hafter, hfit⟩ := FunDef.forced (hwf f (by simp))
        (.of_line (w := []) (emptyLines_emptyText _) .nil hsolid) hf hbare heq
      obtain ⟨-, htext⟩ := hafter.line (g := []) .nil hsolid hc .nil hf₂.solid.append
      have hfits := ih (fun f' h => hwf f' (List.mem_cons_of_mem f h)) hf₂ hdefs hbares htext
      rw [FunDef.allMarginsFit, hfit, hfits, Bool.and_true]

/-- **Margins of a print that is understood go together.** -/
theorem Program.marginsFit_of_written {p q : Program} (h : p.wellFormed = true) {l : Layout}
    {g : Margins} {ending : Ending} (hq : Program.Written (p.indented l g ending) q)
    (hbare : q.bare = p.bare) : p.marginsFit g = true := by
  obtain ⟨funs, span⟩ := p
  obtain ⟨funs', span'⟩ := q
  simp only [Program.wellFormed, Bool.and_eq_true, Bool.not_eq_true', List.isEmpty_eq_false_iff,
    List.all_eq_true] at h
  obtain ⟨hne, hwf⟩ := h
  obtain ⟨f, fs, rfl⟩ := List.exists_cons_of_ne_nil hne
  obtain ⟨b, z, hending, hz, hrest⟩ := ending.rest
  obtain ⟨t, b', z', heq, hdefs, hne', -, -, -⟩ := hq
  simp only [Program.bare, Program.mk.injEq, and_true] at hbare
  cases hdefs with
  | nil => exact absurd rfl hne'
  | @cons _ f' fs' c t v _ hc hf hdefs =>
    rw [Program.indented, FunDef.indentedAll, hending] at heq
    simp only [List.append_assoc] at heq
    obtain ⟨-, htext⟩ := EmptyLines.unique (emptyLines_emptyText _) hc
      (.of_solid (g := []) .nil (f.indented_solid _ _ _).append)
      (.of_solid (g := []) .nil hf.solid.append) heq
    exact forced_defs hwf hrest hf hdefs hbare htext

/-- **Which indentation is understood.**  The print of a well-formed program, with any margins of
spaces and tabs for its bodies and otherwise any layout, parses to the same program if and only if the
margins go together: each body is a single line, or its margin gives the same text before and after
the indentation around it. -/
theorem Program.parse_indented_iff {p : Program} (h : p.wellFormed = true) (l : Layout) (g : Margins)
    (ending : Ending) :
    (∃ q, Program.parse (String.ofList (p.indented l g ending)) = .ok q ∧ q.bare = p.bare) ↔
      p.marginsFit g = true := by
  constructor
  · rintro ⟨q, hparse, hbare⟩
    have hq := Program.parse_eq_ok_iff_written.mp hparse
    rw [String.toList_ofList] at hq
    exact Program.marginsFit_of_written h hq hbare
  · intro hfit
    obtain ⟨q, hq, hbare⟩ := p.indented_written h l hfit ending
    refine ⟨q, Program.parse_eq_ok_iff_written.mpr ?_, hbare⟩
    rwa [String.toList_ofList]

/-- Two spaces for the body of a function, and a tab for every body inside it. -/
def Margins.mixed : Margins := fun path =>
  if path.length = 2 then { blanks := [.space, .space] } else { blanks := [.tab] }

/-- A block of one line can be indented by a tab below two spaces. -/
theorem Program.parse_indented_mixed :
    String.ofList (Program.indented (fun _ => {}) .mixed (.tail [] [] none)
      ⟨[.ofStmts "main" [] [.doBlock [.ofExpr (.var "x")], .ofExpr (.var "y")]], .initial⟩) =
        "def main()\n  do\n  \tx\n  y\n" ∧
    ∃ q, Program.parse (String.ofList (Program.indented (fun _ => {}) .mixed (.tail [] [] none)
      ⟨[.ofStmts "main" [] [.doBlock [.ofExpr (.var "x")], .ofExpr (.var "y")]], .initial⟩)) = .ok q ∧
      q.bare = Program.bare
        ⟨[.ofStmts "main" [] [.doBlock [.ofExpr (.var "x")], .ofExpr (.var "y")]], .initial⟩ :=
  ⟨by decide +kernel, (Program.parse_indented_iff (by decide +kernel) _ .mixed _).mpr (by decide)⟩

/-- A block of two lines cannot: its second line would have to start with the tab. -/
theorem Program.parse_indented_mixed_fails :
    Program.wellFormed
      ⟨[.ofStmts "main" [] [.doBlock [.ofExpr (.var "x"), .ofExpr (.var "y")]]], .initial⟩ = true ∧
    String.ofList (Program.indented (fun _ => {}) .mixed (.tail [] [] none)
      ⟨[.ofStmts "main" [] [.doBlock [.ofExpr (.var "x"), .ofExpr (.var "y")]]], .initial⟩) =
        "def main()\n  do\n  \tx\n  \ty\n" ∧
    ∀ q, Program.parse "def main()\n  do\n  \tx\n  \ty\n" ≠ .ok q := by
  refine ⟨by decide +kernel, by decide +kernel, fun q hq => ?_⟩
  have hnone : (Program.parse "def main()\n  do\n  \tx\n  \ty\n").toOption = none := by
    decide +kernel
  rw [hq] at hnone
  cases hnone

end Offside
