import Offside.Reading
import Offside.Proofs.Grammar.Blanks
import Offside.Proofs.Grammar.Words
import Offside.Proofs.Grammar.Numbers

/-!
# How programs are written

When a text is that of an expression, a statement, a function or a program, said without the grammar:
each part stands at a byte offset, is made of the texts of its own parts, and has the span of its
text.  Statements are written below remembered indentations `ind`, the innermost first, and before a
text `k`, which matters for the end of their last line only.

* `Expr.WrittenAt`, `Stmt.WrittenAt`, `Body.WrittenAt`, `FunDef.WrittenAt`, `Program.Written`;
* the texts of code start with a character of code: `Expr.WrittenAt.solid`, `Stmt.WrittenAt.solid`.
-/

namespace Offside

open Text Pattern

/-- The span of a text that starts at an offset. -/
def Span.over (pos : Nat) (t : List Char) : Span :=
  ⟨pos, pos + byteSize t⟩

/-! ### Names, strings and lists -/

/-- A name and its place. -/
def Ident.WrittenAt (pos : Nat) (t : List Char) (i : Ident) : Prop :=
  IsName t ∧ i = ⟨String.ofList t, .over pos t⟩

/-- Content that the delimiters of a literal can enclose. -/
def StrLit.Enclosed (lit : StrLit) : Prop :=
  if lit.long then LongBody lit.quote.mark lit.content.toList
  else ShortBody lit.quote.mark lit.content.toList

/-- What stands between two parentheses: items with commas between them and perhaps one after the
last.  With `false`, what stands there after an item. -/
inductive Listed {α : Type} (R : Nat → List Char → α → Prop) :
    Bool → Nat → List Char → List α → Prop
  | nil {start : Bool} {pos : Nat} {a : List Char} : Spaces a → Listed R start pos a []
  | comma {pos : Nat} {a c : List Char} : Spaces a → Spaces c →
      Listed R false pos (a ++ ([','] ++ c)) []
  | first {pos : Nat} {a t u : List Char} {x : α} {xs : List α} : Spaces a →
      R (pos + byteSize a) t x → Listed R false (pos + byteSize a + byteSize t) u xs →
      Listed R true pos (a ++ (t ++ u)) (x :: xs)
  | next {pos : Nat} {a b t u : List Char} {x : α} {xs : List α} : Spaces a → Spaces b →
      R (pos + byteSize a + byteSize [','] + byteSize b) t x →
      Listed R false (pos + byteSize a + byteSize [','] + byteSize b + byteSize t) u xs →
      Listed R false pos (a ++ ([','] ++ (b ++ (t ++ u)))) (x :: xs)

/-! ### Expressions -/

/-- **The texts of an expression.** -/
inductive Expr.WrittenAt : (pos : Nat) → (t : List Char) → (e : Expr) → Prop
  | call {pos : Nat} {f : Ident} {args : List Expr} {t a u : List Char} : f.WrittenAt pos t →
      Spaces a → Listed Expr.WrittenAt true (pos + byteSize t + byteSize a + byteSize ['(']) u args →
      WrittenAt pos (t ++ (a ++ (['('] ++ (u ++ [')']))))
        (.call f args (.over pos (t ++ (a ++ (['('] ++ (u ++ [')']))))))
  | assign {pos : Nat} {x : Ident} {e : Expr} {t a b u : List Char} : x.WrittenAt pos t →
      Spaces a → Spaces b →
      WrittenAt (pos + byteSize t + byteSize a + byteSize ['='] + byteSize b) u e →
      WrittenAt pos (t ++ (a ++ (['='] ++ (b ++ u))))
        (.assign x e (.over pos (t ++ (a ++ (['='] ++ (b ++ u))))))
  | name {pos : Nat} {x : Ident} {t : List Char} : x.WrittenAt pos t →
      WrittenAt pos t (.name x (.over pos t))
  | string {pos : Nat} {lit : StrLit} : lit.Enclosed →
      WrittenAt pos lit.sourceForm.toList (.string lit (.over pos lit.sourceForm.toList))
  | number {pos : Nat} {κ : NumberKind} {t : List Char} : κ.Spells t →
      WrittenAt pos t (.number κ (String.ofList t) (.over pos t))

/-! ### Statements -/

/-- The end of a header line, and the empty lines between it and its body, before the text `k`. -/
def Header (t k : List Char) : Prop :=
  ∃ a c e b, t = a ++ (c ++ (e ++ b)) ∧ Spaces a ∧ (c = [] ∨ c = [':']) ∧ LineEnd e (b ++ k) ∧
    EmptyLines b

mutual

/-- **The texts of a statement** below remembered indentations and before the text `k`. -/
inductive Stmt.WrittenAt : (ind : List (List Char)) → (pos : Nat) → (t k : List Char) →
    (s : Stmt) → Prop
  | line {ind : List (List Char)} {pos : Nat} {e : Expr} {t v k : List Char} : e.WrittenAt pos t →
      LineEnd v k → Stmt.WrittenAt ind pos (t ++ v) k (.line e (.over pos t))
  | block {ind : List (List Char)} {pos : Nat} {b : Body} {u k : List Char} :
      Block.WrittenAt ind (pos + byteSize ['d', 'o']) u k b →
      Stmt.WrittenAt ind pos (['d', 'o'] ++ u) k (.block b (.over pos (['d', 'o'] ++ u)))
  | cond {ind : List (List Char)} {pos : Nat} {br : Branch} {brs : List Branch}
      {o : Option Body} {t u v k : List Char} :
      Branch.WrittenAt ['i', 'f'] ind pos t (u ++ (v ++ k)) br →
      Elifs.WrittenAt ind (pos + byteSize t) u (v ++ k) brs →
      Else.WrittenAt ind (pos + byteSize t + byteSize u) v k o →
      Stmt.WrittenAt ind pos (t ++ (u ++ v)) k (.cond (br :: brs) o (.over pos (t ++ (u ++ v))))

/-- The texts of a branch that starts with the keyword `w`. -/
inductive Branch.WrittenAt : List Char → List (List Char) → Nat → List Char → List Char →
    Branch → Prop
  | mk {w : List Char} {ind : List (List Char)} {pos : Nat} {e : Expr} {b : Body}
      {g t u k : List Char} : Spaces g → Stops .nameInner (g ++ t) →
      e.WrittenAt (pos + byteSize w + byteSize g) t →
      Block.WrittenAt ind (pos + byteSize w + byteSize g + byteSize t) u k b →
      Branch.WrittenAt w ind pos (w ++ (g ++ (t ++ u))) k (.mk e b)

/-- The texts of `elif` branches on lines of their own. -/
inductive Elifs.WrittenAt : List (List Char) → Nat → List Char → List Char → List Branch → Prop
  | nil {ind : List (List Char)} {pos : Nat} {k : List Char} : Elifs.WrittenAt ind pos [] k []
  | cons {ind : List (List Char)} {pos : Nat} {br : Branch} {brs : List Branch}
      {b t u k : List Char} : EmptyLines b →
      Branch.WrittenAt ['e', 'l', 'i', 'f'] ind (pos + byteSize b + byteSize ind.flatten) t (u ++ k)
        br →
      Elifs.WrittenAt ind (pos + byteSize b + byteSize ind.flatten + byteSize t) u k brs →
      Elifs.WrittenAt ind pos (b ++ (ind.flatten ++ (t ++ u))) k (br :: brs)

/-- The texts of an `else` branch on lines of its own, if there is one. -/
inductive Else.WrittenAt : List (List Char) → Nat → List Char → List Char → Option Body → Prop
  | absent {ind : List (List Char)} {pos : Nat} {k : List Char} : Else.WrittenAt ind pos [] k none
  | present {ind : List (List Char)} {pos : Nat} {body : Body} {b u k : List Char} : EmptyLines b →
      Block.WrittenAt ind (pos + byteSize b + byteSize ind.flatten + byteSize ['e', 'l', 's', 'e'])
        u k body →
      Else.WrittenAt ind pos (b ++ (ind.flatten ++ (['e', 'l', 's', 'e'] ++ u))) k (some body)

/-- The texts of the rest of a header line with the body below it. -/
inductive Block.WrittenAt : List (List Char) → Nat → List Char → List Char → Body → Prop
  | mk {ind : List (List Char)} {pos : Nat} {b : Body} {h u k : List Char} : Header h (u ++ k) →
      Body.WrittenAt ind (pos + byteSize h) u k b → Block.WrittenAt ind pos (h ++ u) k b

/-- The texts of a body: its first line has an indentation of its own below the remembered ones. -/
inductive Body.WrittenAt : (ind : List (List Char)) → (pos : Nat) → (t k : List Char) →
    (b : Body) → Prop
  | mk {ind : List (List Char)} {pos : Nat} {s : Stmt} {ss : List Stmt} {own u v k : List Char} :
      own ≠ [] → Spaces own →
      Stmt.WrittenAt (own :: ind) (pos + byteSize ind.flatten + byteSize own) u (v ++ k) s →
      Lines.WrittenAt (own :: ind) (pos + byteSize ind.flatten + byteSize own + byteSize u) v k
        ss →
      Body.WrittenAt ind pos (ind.flatten ++ (own ++ (u ++ v))) k
        (.mk (s :: ss) (.over pos (ind.flatten ++ (own ++ (u ++ v)))))

/-- The texts of the further statements of a body. -/
inductive Lines.WrittenAt : List (List Char) → Nat → List Char → List Char → List Stmt → Prop
  | nil {ind : List (List Char)} {pos : Nat} {k : List Char} : Lines.WrittenAt ind pos [] k []
  | cons {ind : List (List Char)} {pos : Nat} {s : Stmt} {ss : List Stmt} {b u v k : List Char} :
      EmptyLines b →
      Stmt.WrittenAt ind (pos + byteSize b + byteSize ind.flatten) u (v ++ k) s →
      Lines.WrittenAt ind (pos + byteSize b + byteSize ind.flatten + byteSize u) v k ss →
      Lines.WrittenAt ind pos (b ++ (ind.flatten ++ (u ++ v))) k (s :: ss)

end

/-! ### Functions and programs -/

/-- **The texts of a function** before the text `k`. -/
inductive FunDef.WrittenAt : (pos : Nat) → (t k : List Char) → (f : FunDef) → Prop
  | mk {pos : Nat} {f : Ident} {ps : List Ident} {body : Body} {g t a l u k : List Char} :
      g ≠ [] → Spaces g → f.WrittenAt (pos + byteSize ['d', 'e', 'f'] + byteSize g) t → Spaces a →
      Listed Ident.WrittenAt true (pos + byteSize ['d', 'e', 'f'] + byteSize g + byteSize t +
        byteSize a + byteSize ['(']) l ps →
      Block.WrittenAt [] (pos + byteSize ['d', 'e', 'f'] + byteSize g + byteSize t + byteSize a +
        byteSize ['('] + byteSize l + byteSize [')']) u k body →
      WrittenAt pos (['d', 'e', 'f'] ++ (g ++ (t ++ (a ++ (['('] ++ (l ++ ([')'] ++ u))))))) k
        ⟨f, ps, body, .over pos
          (['d', 'e', 'f'] ++ (g ++ (t ++ (a ++ (['('] ++ (l ++ ([')'] ++ u)))))))⟩

/-- The texts of functions one after the other. -/
inductive Defs.WrittenAt : Nat → List Char → List Char → List FunDef → Prop
  | nil {pos : Nat} {k : List Char} : WrittenAt pos [] k []
  | cons {pos : Nat} {f : FunDef} {fs : List FunDef} {b t u k : List Char} : EmptyLines b →
      f.WrittenAt (pos + byteSize b) t (u ++ k) →
      WrittenAt (pos + byteSize b + byteSize t) u k fs →
      WrittenAt pos (b ++ (t ++ u)) k (f :: fs)

/-- **The texts of a program.** -/
def Program.Written (cs : List Char) (p : Program) : Prop :=
  ∃ t b z, cs = t ++ (b ++ z) ∧ Defs.WrittenAt 0 t (b ++ z) p.funs ∧ p.funs ≠ [] ∧ EmptyLines b ∧
    LastLine z ∧ p.span = .over 0 cs

/-! ### The spans of the parts -/

section
variable {pos : Nat} {t k : List Char} {ind : List (List Char)}

theorem Ident.WrittenAt.span_eq {x : Ident} (h : x.WrittenAt pos t) : x.span = .over pos t := by
  rw [h.2]

theorem Expr.WrittenAt.span_eq {e : Expr} (h : e.WrittenAt pos t) : e.span = .over pos t := by
  cases h <;> rfl

theorem Body.WrittenAt.span_eq {b : Body} (h : b.WrittenAt ind pos t k) : b.span = .over pos t := by
  cases h
  rfl

theorem FunDef.WrittenAt.span_eq {d : FunDef} (h : d.WrittenAt pos t k) : d.span = .over pos t := by
  cases h
  rfl

end

/-! ### How code starts -/

/-- The characters that may start a number literal. -/
def numberHeads : List Char :=
  ['.', '0', '1', '2', '3', '4', '5', '6', '7', '8', '9']

theorem mem_numberHeads_of_digit {x : Char} (h : CharClass.digit.contains x = true) :
    x ∈ numberHeads := by
  simp only [CharClass.contains, Bool.and_eq_true, decide_eq_true_eq] at h
  obtain ⟨h₁, h₂⟩ := h
  have hlo : 48 ≤ x.toNat := h₁
  have hhi : x.toNat ≤ 57 := h₂
  have hx : x = Char.ofNat x.toNat := (Char.ofNat_toNat x).symm
  have hall : ∀ n < 58, 48 ≤ n → Char.ofNat n ∈ numberHeads := by decide
  rw [hx]
  exact hall x.toNat (by omega) hlo

theorem mem_numberHeads_of_nonzero {x : Char} (h : CharClass.nonzeroDigit.contains x = true) :
    x ∈ numberHeads := by
  simp only [CharClass.contains, Bool.and_eq_true, decide_eq_true_eq] at h
  refine mem_numberHeads_of_digit ?_
  simp only [CharClass.contains, Bool.and_eq_true, decide_eq_true_eq]
  exact ⟨Char.le_trans (by decide) h.1, h.2⟩

theorem Digits.head {t : List Char} (h : Digits t) : ∃ x u, t = x :: u ∧ x ∈ numberHeads := by
  obtain ⟨x, u, rfl, hx, -⟩ := h
  exact ⟨x, u, rfl, mem_numberHeads_of_digit hx⟩

theorem FloatText.head {t : List Char} (h : FloatText t) :
    ∃ x u, t = x :: u ∧ x ∈ numberHeads := by
  rcases h with ⟨a, b, rfl, ha, -⟩ | ⟨a, b, rfl, ha, -⟩
  · rcases ha with ⟨a, c, rfl, ha, -⟩ | ⟨c, rfl, -⟩
    · obtain ⟨x, u, rfl, hx⟩ := ha.head
      exact ⟨x, _, rfl, hx⟩
    · exact ⟨'.', _, rfl, by decide⟩
  · obtain ⟨x, u, rfl, hx⟩ := ha.head
    exact ⟨x, _, rfl, hx⟩

theorem NumberKind.Spells.head {κ : NumberKind} {t : List Char} (h : κ.Spells t) :
    ∃ x u, t = x :: u ∧ x ∈ numberHeads := by
  cases κ with
  | dec =>
    rcases h with rfl | ⟨x, u, rfl, hx, -⟩
    · exact ⟨'0', [], rfl, by decide⟩
    · exact ⟨x, u, rfl, mem_numberHeads_of_nonzero hx⟩
  | hex | oct | bin =>
    obtain ⟨x, u, rfl, -, -⟩ := h
    exact ⟨'0', _, rfl, by decide⟩
  | float => exact FloatText.head h
  | imag =>
    obtain ⟨a, x, rfl, ha, -⟩ := h
    rcases ha with ha | ha
    · obtain ⟨y, u, rfl, hy⟩ := ha.head
      exact ⟨y, _, rfl, hy⟩
    · obtain ⟨y, u, rfl, hy⟩ := ha.head
      exact ⟨y, _, rfl, hy⟩

theorem StrLit.sourceForm_head (lit : StrLit) :
    ∃ u, lit.sourceForm.toList = lit.quote.mark :: u := by
  unfold StrLit.sourceForm StrLit.delimiter
  cases lit.long <;> simp [List.replicate]

/-- The characters with which an expression may start. -/
def startsExpr (x : Char) : Bool :=
  nameHead.contains x || x == '\'' || x == '"' || numberHeads.contains x

theorem Quote.startsExpr_mark (q : Quote) : startsExpr q.mark = true := by
  cases q <;> decide

theorem Ident.WrittenAt.head {pos : Nat} {t : List Char} {i : Ident} (h : i.WrittenAt pos t) :
    ∃ x u, t = x :: u ∧ startsExpr x = true := by
  obtain ⟨⟨⟨x, u, rfl, hx, -⟩, -⟩, -⟩ := h
  exact ⟨x, u, rfl, by simp [startsExpr, hx]⟩

theorem Expr.WrittenAt.head {pos : Nat} {t : List Char} {e : Expr} (h : e.WrittenAt pos t) :
    ∃ x u, t = x :: u ∧ startsExpr x = true := by
  cases h with
  | call hf _ _ =>
    obtain ⟨x, u, rfl, hx⟩ := hf.head
    exact ⟨x, _, rfl, hx⟩
  | assign hf _ _ _ =>
    obtain ⟨x, u, rfl, hx⟩ := hf.head
    exact ⟨x, _, rfl, hx⟩
  | name hf => exact hf.head
  | @string _ lit _ =>
    obtain ⟨u, hu⟩ := lit.sourceForm_head
    exact ⟨_, u, hu, lit.quote.startsExpr_mark⟩
  | number hn =>
    obtain ⟨x, u, rfl, hx⟩ := hn.head
    exact ⟨x, u, rfl, by simp [startsExpr, hx]⟩

/-- A class without some characters, said so that it can be evaluated. -/
theorem eq_false_of_any {p : Char → Bool} {l : List Char} (h : l.any p = false) {x : Char}
    (hx : x ∈ l) : p x = false := by
  simpa using List.any_eq_false.mp h x hx

theorem Solid.of_startsExpr {x : Char} {u : List Char} (h : startsExpr x = true) :
    Solid (x :: u) := by
  have hfree : [' ', '\t', '#', '\n', '\r'].any startsExpr = false := by decide
  refine ⟨x, u, rfl, fun hmem => ?_⟩
  rw [eq_false_of_any hfree hmem] at h
  cases h

theorem Ident.WrittenAt.solid {pos : Nat} {t : List Char} {i : Ident} (h : i.WrittenAt pos t) :
    Solid t := by
  obtain ⟨x, u, rfl, hx⟩ := h.head
  exact .of_startsExpr hx

theorem Expr.WrittenAt.solid {pos : Nat} {t : List Char} {e : Expr} (h : e.WrittenAt pos t) :
    Solid t := by
  obtain ⟨x, u, rfl, hx⟩ := h.head
  exact .of_startsExpr hx

theorem Stmt.WrittenAt.head {ind : List (List Char)} {pos : Nat} {t k : List Char} {s : Stmt}
    (h : s.WrittenAt ind pos t k) : ∃ x u, t = x :: u ∧ startsExpr x = true := by
  cases h with
  | line he _ =>
    obtain ⟨x, u, rfl, hx⟩ := he.head
    exact ⟨x, _, rfl, hx⟩
  | block _ => exact ⟨'d', _, rfl, by decide⟩
  | cond hbr _ _ =>
    cases hbr
    exact ⟨'i', _, rfl, by decide⟩

/-- A statement starts with a character of code. -/
theorem Stmt.WrittenAt.solid {ind : List (List Char)} {pos : Nat} {t k : List Char} {s : Stmt}
    (h : s.WrittenAt ind pos t k) : Solid t := by
  obtain ⟨x, u, rfl, hx⟩ := h.head
  exact .of_startsExpr hx

theorem FunDef.WrittenAt.solid {pos : Nat} {t k : List Char} {f : FunDef} (h : f.WrittenAt pos t k) :
    Solid t := by
  cases h
  exact ⟨'d', _, rfl, by decide⟩

/-- A body starts with the blanks of its first line. -/
theorem Body.WrittenAt.ne_nil {ind : List (List Char)} {pos : Nat} {t k : List Char} {b : Body}
    (h : b.WrittenAt ind pos t k) : t ≠ [] := by
  cases h with
  | mk hown _ _ _ =>
    intro hnil
    simp only [List.append_eq_nil_iff] at hnil
    exact hown hnil.2.1

end Offside
