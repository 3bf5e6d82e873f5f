import Offside.Proofs.Layout
import Offside.Proofs.Syntax

/-!
# Printing with any indentation

Each body may be indented by blanks of its own choice, spaces and tabs in any order.  A line of a body
starts with the indentation of the header above it and goes on with the body's own margin.

A line after the first one of a body is read the other way round, with the innermost margin first.  So
not all margins go together: unless a body is a single line, its margin and the indentation around it
have to give the same text in both orders.

* margins for all bodies: `Margins`, and those of a layout with one kind of blank: `Margins.uniform`;
* **printing with margins**: `Program.indented`, of which `Program.print` is a case:
  `Program.indented_uniform`;
* margins that go together: `Program.marginsFit`, `Program.marginsFit_uniform`.
-/

namespace Offside

/-! ### Margins -/

/-- The blanks by which a body is indented more than its header: at least one. -/
structure Margin where
  blanks : List Blank
  blanks_ne : blanks ≠ [] := by decide

def Margin.text (m : Margin) : List Char := gapText m.blanks

/-- **Margins:** one for every body, where places are paths from the whole program. -/
def Margins := List Nat → Margin

namespace Margins

/-- The margin at the place itself. -/
def here (g : Margins) : Margin := g []

/-- The margins of the `i`-th part. -/
def part (g : Margins) (i : Nat) : Margins := fun path => g (i :: path)

/-- The margins of a layout, made of one kind of blank. -/
def uniform (blank : Blank) (l : Layout) : Margins := fun path =>
  ⟨List.replicate (l path).width blank, by
    have := (l path).width_pos
    rw [Ne, List.replicate_eq_nil_iff]
    omega⟩

end Margins

/-! ### Printing -/

mutual

/-- **Prints a statement** below the indentation `w`.  With `cut`, its last line goes without a line
break. -/
def Stmt.indented (l : Layout) (g : Margins) (w : List Char) (cut : Bool) : Stmt → List Char
  | .line e _ => e.print l ++ l.here.line.text cut
  | .block b _ => ['d', 'o'] ++ Body.indented l g w cut b
  | .cond [] _ _ => []
  | .cond (br :: brs) o _ =>
    Branch.indented ['i', 'f'] (l.part 0) (g.part 0) w (cut && brs.isEmpty && o.isNone) br ++
      (Branch.indentedAll l g 1 w (cut && o.isNone) brs ++
        Body.indentedElse (l.part (brs.length + 1)) (g.part (brs.length + 1)) w cut o)

/-- Prints a branch that starts with a keyword. -/
def Branch.indented (word : List Char) (l : Layout) (g : Margins) (w : List Char) (cut : Bool) :
    Branch → List Char
  | .mk e b =>
    word ++ (gapText l.here.afterWord ++ (e.print (l.part 0) ++
      Body.indented (l.part 1) (g.part 1) w cut b))

/-- Prints `elif` branches, of which the first is the `i`-th part. -/
def Branch.indentedAll (l : Layout) (g : Margins) (i : Nat) (w : List Char) (cut : Bool) :
    List Branch → List Char
  | [] => []
  | br :: brs =>
    emptyText (l.part i).here.above ++ (w ++
      (Branch.indented ['e', 'l', 'i', 'f'] (l.part i) (g.part i) w (cut && brs.isEmpty) br ++
        Branch.indentedAll l g (i + 1) w cut brs))

/-- Prints an `else` branch, if there is one. -/
def Body.indentedElse (l : Layout) (g : Margins) (w : List Char) (cut : Bool) :
    Option Body → List Char
  | none => []
  | some b =>
    emptyText l.here.above ++ (w ++ (['e', 'l', 's', 'e'] ++ Body.indented l g w cut b))

/-- Prints the rest of a header line with the body below it. -/
def Body.indented (l : Layout) (g : Margins) (w : List Char) (cut : Bool) : Body → List Char
  | .mk ss _ => l.header ++ Stmt.indentedAll l g 0 (w ++ g.here.text) cut ss

/-- Prints statements on lines of their own, of which the first is the `i`-th part. -/
def Stmt.indentedAll (l : Layout) (g : Margins) (i : Nat) (w : List Char) (cut : Bool) :
    List Stmt → List Char
  | [] => []
  | s :: ss =>
    emptyText (l.part i).here.above ++ (w ++
      (Stmt.indented (l.part i) (g.part i) w (cut && ss.isEmpty) s ++
        Stmt.indentedAll l g (i + 1) w cut ss))

end

/-- Prints a function, whose body is below no indentation. -/
def FunDef.indented (l : Layout) (g : Margins) (cut : Bool) (f : FunDef) : List Char :=
  ['d', 'e', 'f'] ++ (gapText l.here.afterWord ++ (f.name.print l ++ (gapText l.here.before ++
    (['('] ++ ((l.part 0).list ((l.part 0).texts Ident.print 0 f.params) ++ ([')'] ++
      f.body.indented (l.part 1) (g.part 1) [] cut))))))

/-- Prints functions, of which the first is the `i`-th part. -/
def FunDef.indentedAll (l : Layout) (g : Margins) (i : Nat) (cut : Bool) : List FunDef → List Char
  | [] => []
  | f :: fs =>
    emptyText (l.part i).here.above ++
      (f.indented (l.part i) (g.part i) (cut && fs.isEmpty) ++
        FunDef.indentedAll l g (i + 1) cut fs)

/-- **Prints a program** with a margin for each of its bodies. -/
def Program.indented (l : Layout) (g : Margins) (ending : Ending) (p : Program) : List Char :=
  FunDef.indentedAll l g 0 ending.isCut p.funs ++ ending.text

/-! ### Margins that go together -/

/-- Are the statements a single line? -/
def Stmt.oneLine : List Stmt → Bool
  | [.line _ _] => true
  | _ => false

mutual

/-- Do the margins of all bodies in a statement go together, below the indentation `w`? -/
def Stmt.marginsFit (g : Margins) (w : List Char) : Stmt → Bool
  | .line _ _ => true
  | .block b _ => b.marginsFit g w
  | .cond brs o _ =>
    Branch.allMarginsFit g 0 w brs && Body.noneOrMarginsFit (g.part brs.length) w o

def Branch.allMarginsFit (g : Margins) (i : Nat) (w : List Char) : List Branch → Bool
  | [] => true
  | .mk _ b :: brs =>
    b.marginsFit ((g.part i).part 1) w && Branch.allMarginsFit g (i + 1) w brs

def Body.noneOrMarginsFit (g : Margins) (w : List Char) : Option Body → Bool
  | none => true
  | some b => b.marginsFit g w

/-- **Margins that go together:** a body is a single line, or its margin and the indentation around it
give the same text in both orders. -/
def Body.marginsFit (g : Margins) (w : List Char) : Body → Bool
  | .mk ss _ =>
    (Stmt.oneLine ss || decide (g.here.text ++ w = w ++ g.here.text)) &&
      Stmt.allMarginsFit g 0 (w ++ g.here.text) ss

def Stmt.allMarginsFit (g : Margins) (i : Nat) (w : List Char) : List Stmt → Bool
  | [] => true
  | s :: ss => s.marginsFit (g.part i) w && Stmt.allMarginsFit g (i + 1) w ss

end

def FunDef.allMarginsFit (g : Margins) (i : Nat) : List FunDef → Bool
  | [] => true
  | f :: fs =>
    f.body.marginsFit ((g.part i).part 1) [] && FunDef.allMarginsFit g (i + 1) fs

/-- Do the margins of all bodies in a program go together? -/
def Program.marginsFit (g : Margins) (p : Program) : Bool :=
  FunDef.allMarginsFit g 0 p.funs

/-! ### One kind of blank -/

section
variable {blank : Blank}

theorem Margins.uniform_text (l : Layout) :
    (Margins.uniform blank l).here.text = margin blank l.here.width :=
  List.map_replicate

theorem margin_append (m n : Nat) : margin blank m ++ margin blank n = margin blank (m + n) :=
  List.replicate_append_replicate

/-- With the margins of a layout, a statement is printed as the layout has it, and the margins go
together. -/
def Stmt.Uniform (blank : Blank) (s : Stmt) : Prop :=
  ∀ (l : Layout) (n : Nat),
    (∀ cut, s.indented l (.uniform blank l) (margin blank n) cut = s.print blank l n cut) ∧
      s.marginsFit (.uniform blank l) (margin blank n) = true

def Body.Uniform (blank : Blank) (b : Body) : Prop :=
  ∀ (l : Layout) (n : Nat),
    (∀ cut, b.indented l (.uniform blank l) (margin blank n) cut = b.print blank l n cut) ∧
      b.marginsFit (.uniform blank l) (margin blank n) = true

theorem uniform_stmts {ss : List Stmt} (h : ∀ s ∈ ss, s.Uniform blank) (l : Layout) (i n : Nat) :
    (∀ cut, Stmt.indentedAll l (.uniform blank l) i (margin blank n) cut ss =
        Stmt.prints blank l i n cut ss) ∧
      Stmt.allMarginsFit (.uniform blank l) i (margin blank n) ss = true := by
  induction ss generalizing i with
  | nil => exact ⟨fun _ => rfl, rfl⟩
  | cons s ss ih =>
    obtain ⟨hprint, hfit⟩ := h s (List.mem_cons_self ..) (l.part i) n
    obtain ⟨hprints, hfits⟩ := ih (fun s' hs' => h s' (List.mem_cons_of_mem s hs')) (i + 1)
    refine ⟨fun cut => ?_, ?_⟩
    · rw [Stmt.indentedAll, Stmt.prints, hprints]
      exact congrArg (fun t => _ ++ (_ ++ (t ++ _))) (hprint _)
    · rw [Stmt.allMarginsFit, hfits, Bool.and_true]
      exact hfit

theorem uniform_branch {br : Branch} (h : br.body.Uniform blank) (word : List Char) (l : Layout)
    (n : Nat) (cut : Bool) :
    br.indented word l (.uniform blank l) (margin blank n) cut = br.print blank word l n cut := by
  obtain ⟨e, b⟩ := br
  rw [Branch.indented, Branch.print]
  exact congrArg (fun t => _ ++ (_ ++ (_ ++ t))) ((h (l.part 1) n).1 cut)

theorem uniform_branches {brs : List Branch} (h : ∀ br ∈ brs, br.body.Uniform blank) (l : Layout)
    (i n : Nat) :
    (∀ cut, Branch.indentedAll l (.uniform blank l) i (margin blank n) cut brs =
        Branch.prints blank l i n cut brs) ∧
      Branch.allMarginsFit (.uniform blank l) i (margin blank n) brs = true := by
  induction brs generalizing i with
  | nil => exact ⟨fun _ => rfl, rfl⟩
  | cons br brs ih =>
    have hbr := h br (List.mem_cons_self ..)
    obtain ⟨hprints, hfits⟩ := ih (fun br' hbr' => h br' (List.mem_cons_of_mem br hbr')) (i + 1)
    refine ⟨fun cut => ?_, ?_⟩
    · rw [Branch.indentedAll, Branch.prints, hprints]
      exact congrArg (fun t => _ ++ (_ ++ (t ++ _))) (uniform_branch hbr _ (l.part i) n _)
    · obtain ⟨e, b⟩ := br
      rw [Branch.allMarginsFit, hfits, Bool.and_true]
      exact (hbr ((l.part i).part 1) n).2

theorem uniform_else {o : Option Body} (h : ∀ b ∈ o, b.Uniform blank) (l : Layout) (n : Nat) :
    (∀ cut, Body.indentedElse l (.uniform blank l) (margin blank n) cut o =
        Body.printElse blank l n cut o) ∧
      Body.noneOrMarginsFit (.uniform blank l) (margin blank n) o = true := by
  cases o with
  | none => exact ⟨fun _ => rfl, rfl⟩
  | some b =>
    obtain ⟨hprint, hfit⟩ := h b rfl l n
    refine ⟨fun cut => ?_, hfit⟩
    rw [Body.indentedElse, Body.printElse, hprint]

theorem uniform_cases : Stmt.Cases (Stmt.Uniform blank) (Body.Uniform blank) where
  line e span l n := ⟨fun _ => rfl, rfl⟩
  block b span hb l n := by
    obtain ⟨hprint, hfit⟩ := hb l n
    refine ⟨fun cut => ?_, hfit⟩
    rw [Stmt.indented, Stmt.print, hprint]
  cond brs o span hbrs ho l n := by
    refine ⟨fun cut => ?_, ?_⟩
    · cases brs with
      | nil => rw [Stmt.indented, Stmt.print]
      | cons br brs =>
        have hfirst := uniform_branch (hbrs br (List.mem_cons_self ..)) ['i', 'f'] (l.part 0) n
          (cut && brs.isEmpty && o.isNone)
        have hrest := (uniform_branches (fun br' hbr' => hbrs br' (List.mem_cons_of_mem br hbr'))
          l 1 n).1 (cut && o.isNone)
        have helse := (uniform_else ho (l.part (brs.length + 1)) n).1 cut
        rw [Stmt.indented, Stmt.print, hrest, ← hfirst, ← helse]
        rfl
    · rw [Stmt.marginsFit, (uniform_branches hbrs l 0 n).2, Bool.true_and]
      exact (uniform_else ho (l.part brs.length) n).2
  body ss span hss l n := by
    obtain ⟨hprints, hfits⟩ := uniform_stmts hss l 0 (n + l.here.width)
    have hmargin : margin blank n ++ margin blank l.here.width = margin blank (n + l.here.width) :=
      margin_append n l.here.width
    refine ⟨fun cut => ?_, ?_⟩
    · rw [Body.indented, Body.print, Margins.uniform_text, hmargin, hprints]
    · rw [Body.marginsFit, Margins.uniform_text, hmargin, hfits, margin_append, Nat.add_comm n]
      simp

theorem uniform_defs (fs : List FunDef) (l : Layout) (i : Nat) :
    (∀ cut, FunDef.indentedAll l (.uniform blank l) i cut fs = FunDef.prints blank l i cut fs) ∧
      FunDef.allMarginsFit (.uniform blank l) i fs = true := by
  induction fs generalizing i with
  | nil => exact ⟨fun _ => rfl, rfl⟩
  | cons f fs ih =>
    have hbody : f.body.Uniform blank := uniform_cases.body' f.body
    obtain ⟨hprint, hfit⟩ := hbody ((l.part i).part 1) 0
    obtain ⟨hprints, hfits⟩ := ih (i + 1)
    refine ⟨fun cut => ?_, ?_⟩
    · rw [FunDef.indentedAll, FunDef.prints, hprints, FunDef.print, ← hprint]
      rfl
    · rw [FunDef.allMarginsFit, hfits, Bool.and_true]
      exact hfit

/-- **Printing with a layout** is printing with its margins. -/
theorem Program.indented_uniform (p : Program) (l : Layout) (ending : Ending) :
    p.indented l (.uniform blank l) ending = p.print blank l ending := by
  rw [Program.indented, Program.print, (uniform_defs p.funs l 0).1]

/-- The margins of a layout with one kind of blank go together. -/
theorem Program.marginsFit_uniform (p : Program) (l : Layout) :
    p.marginsFit (.uniform blank l) = true :=
  (uniform_defs p.funs l 0).2

end

end Offside
