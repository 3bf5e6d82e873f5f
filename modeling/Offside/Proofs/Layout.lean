import Offside.Proofs.Grammar.Written

/-!
# Printing programs

A program can be laid out in many ways: blanks, comments, lines without code, optional colons and
commas, three kinds of line breaks and any indentation.  A layout makes these choices for every place
of a program, and printing a program with a layout gives its source.

* well-formed programs, whose names and literals are those of the grammar: `Program.wellFormed`;
* programs without their spans: `Program.bare`;
* **printing**: `Program.print`.
-/

namespace Offside

open Text

/-! ### Well-formed programs -/

/-- Does the rule match the text in full? -/
def Rule.spells (r : Rule) (t : List Char) : Bool :=
  match ((Pattern.rule r).matchStart t).result with
  | some (c, _) => c.rest.isEmpty
  | none => false

/-- A name that the grammar takes as one. -/
def Ident.wellFormed (x : Ident) : Bool :=
  Rule.name.spells x.name.toList

/-- A literal that the grammar takes as one, with its delimiters. -/
def StrLit.wellFormed (lit : StrLit) : Bool :=
  (if lit.long then Rule.longString else Rule.string).spells lit.sourceForm.toList

mutual

/-- An expression of names and literals of the grammar. -/
def Expr.wellFormed : Expr → Bool
  | .call f args _ => f.wellFormed && Expr.allWellFormed args
  | .assign x e _ => x.wellFormed && e.wellFormed
  | .name x _ => x.wellFormed
  | .string lit _ => lit.wellFormed
  | .number κ text _ => κ.rule.spells text.toList

/-- Are all of the expressions well-formed? -/
def Expr.allWellFormed : List Expr → Bool
  | [] => true
  | e :: es => e.wellFormed && Expr.allWellFormed es

end

mutual

/-- A statement of well-formed expressions, where no `if` is without a branch. -/
def Stmt.wellFormed : Stmt → Bool
  | .line e _ => e.wellFormed
  | .block b _ => b.wellFormed
  | .cond brs o _ => !brs.isEmpty && Branch.allWellFormed brs && Body.noneOrWellFormed o

/-- Are all of the branches well-formed? -/
def Branch.allWellFormed : List Branch → Bool
  | [] => true
  | .mk e b :: brs => e.wellFormed && b.wellFormed && Branch.allWellFormed brs

/-- A body of at least one statement, all of which are well-formed. -/
def Body.wellFormed : Body → Bool
  | .mk ss _ => !ss.isEmpty && Stmt.allWellFormed ss

/-- Is the body well-formed, if there is one? -/
def Body.noneOrWellFormed : Option Body → Bool
  | none => true
  | some b => b.wellFormed

/-- Are all of the statements well-formed? -/
def Stmt.allWellFormed : List Stmt → Bool
  | [] => true
  | s :: ss => s.wellFormed && Stmt.allWellFormed ss

end

def FunDef.wellFormed (f : FunDef) : Bool :=
  f.name.wellFormed && f.params.all Ident.wellFormed && f.body.wellFormed

/-- **A program that can be written:** it has a function, and all its parts can be written. -/
def Program.wellFormed (p : Program) : Bool :=
  !p.funs.isEmpty && p.funs.all FunDef.wellFormed

/-! ### Programs without spans -/

/-- The name alone. -/
def Ident.bare (x : Ident) : Ident := ⟨x.name, .initial⟩

mutual

/-- The expression alone. -/
def Expr.bare : Expr → Expr
  | .call f args _ => .call f.bare (Expr.bares args) .initial
  | .assign x e _ => .assign x.bare e.bare .initial
  | .name x _ => .name x.bare .initial
  | .string lit _ => .string lit .initial
  | .number κ text _ => .number κ text .initial

def Expr.bares : List Expr → List Expr
  | [] => []
  | e :: es => e.bare :: Expr.bares es

end

mutual

/-- The statement alone. -/
def Stmt.bare : Stmt → Stmt
  | .line e _ => .line e.bare .initial
  | .block b _ => .block b.bare .initial
  | .cond brs o _ => .cond (Branch.bares brs) (Body.bareOption o) .initial

def Branch.bares : List Branch → List Branch
  | [] => []
  | .mk e b :: brs => .mk e.bare b.bare :: Branch.bares brs

/-- The body alone. -/
def Body.bare : Body → Body
  | .mk ss _ => .mk (Stmt.bares ss) .initial

def Body.bareOption : Option Body → Option Body
  | none => none
  | some b => some b.bare

def Stmt.bares : List Stmt → List Stmt
  | [] => []
  | s :: ss => s.bare :: Stmt.bares ss

end

/-- The function alone. -/
def FunDef.bare (f : FunDef) : FunDef :=
  ⟨f.name.bare, f.params.map Ident.bare, f.body.bare, .initial⟩

/-- **The program alone:** all spans are forgotten. -/
def Program.bare (p : Program) : Program :=
  ⟨p.funs.map FunDef.bare, .initial⟩

/-! ### Layouts -/

/-- A blank inside a line. -/
inductive Blank where
  | space
  | tab
  deriving DecidableEq, Repr, Inhabited

/-- The blank as a character. -/
def Blank.char : Blank → Char
  | space => ' '
  | tab => '\t'

/-- The kinds of line breaks. -/
inductive Newline where
  | lf
  | crlf
  | cr
  deriving DecidableEq, Repr, Inhabited

/-- The characters of a line break. -/
def Newline.text : Newline → List Char
  | lf => ['\n']
  | crlf => ['\r', '\n']
  | cr => ['\r']

/-- What a comment says; it does not go beyond its line. -/
structure Remark where
  text : List Char
  inLine : ∀ c ∈ text, CharClass.notLineEnd.contains c = true

/-- The end of a line after its code: blanks, a comment if there is one, and a line break. -/
structure LineStyle where
  gap : List Blank := []
  remark : Option Remark := none
  newline : Newline := .lf

/-- The text of some blanks. -/
def gapText (g : List Blank) : List Char := g.map Blank.char

/-- The text of a comment, if there is one. -/
def remarkText : Option Remark → List Char
  | none => []
  | some r => '#' :: r.text

/-- The end of a line; with `cut`, without its line break. -/
def LineStyle.text (l : LineStyle) (cut : Bool) : List Char :=
  gapText l.gap ++ (remarkText l.remark ++ if cut then [] else l.newline.text)

/-- Lines without code. -/
def emptyText (ls : List LineStyle) : List Char :=
  (ls.map (·.text false)).flatten

/-- What a layout chooses at one place of a program. -/
structure Choice where
  /-- The lines without code above the line that starts here. -/
  above : List LineStyle := []
  /-- The blanks after the keyword `def`, `if` or `elif`: at least one. -/
  afterWord : List Blank := [.space]
  afterWord_ne : afterWord ≠ [] := by decide
  /-- The blanks before an opening parenthesis or an equals sign, and those after it. -/
  before : List Blank := []
  after : List Blank := []
  /-- The blanks before a closing parenthesis. -/
  close : List Blank := []
  /-- The blanks around the comma before an item of a list. -/
  beforeComma : List Blank := []
  afterComma : List Blank := []
  /-- The comma after the last item of a list, if there is one, with the blanks before it. -/
  lastComma : Option (List Blank) := none
  /-- The colon at the end of a header line, if there is one, with the blanks before it. -/
  colon : Option (List Blank) := none
  /-- The end of the line. -/
  line : LineStyle := {}
  /-- By how many blanks a body is indented more than its header: at least one. -/
  width : Nat := 4
  width_pos : 0 < width := by decide

/-- **A layout:** a choice for every place, where places are paths from the whole program. -/
def Layout := List Nat → Choice

namespace Layout

/-- The choice at the place itself. -/
def here (l : Layout) : Choice := l []

/-- The layout of the `i`-th part. -/
def part (l : Layout) (i : Nat) : Layout := fun path => l (i :: path)

/-- Items from the `i`-th on, each with a comma before it. -/
def items (l : Layout) : Nat → List (List Char) → List Char
  | _, [] => []
  | i, t :: ts =>
    gapText (l.part i).here.beforeComma ++ ([','] ++ (gapText (l.part i).here.afterComma ++
      (t ++ l.items (i + 1) ts)))

/-- The comma after the last item, if there is one, and the blanks before the parenthesis. -/
def closing (l : Layout) : List Char :=
  (match l.here.lastComma with
    | none => []
    | some g => gapText g ++ [',']) ++ gapText l.here.close

/-- What stands between two parentheses. -/
def list (l : Layout) : List (List Char) → List Char
  | [] => gapText l.here.after
  | t :: ts => gapText l.here.after ++ (t ++ (l.items 1 ts ++ l.closing))

/-- The end of a header line. -/
def header (l : Layout) : List Char :=
  (match l.here.colon with
    | none => []
    | some g => gapText g ++ [':']) ++ l.here.line.text false

/-- The texts of several parts from the `i`-th on. -/
def texts {α : Type} (print : Layout → α → List Char) (l : Layout) : Nat → List α → List (List Char)
  | _, [] => []
  | i, x :: xs => print (l.part i) x :: texts print l (i + 1) xs

end Layout

/-! ### Printing -/

/-- The text of a name. -/
def Ident.print (_ : Layout) (x : Ident) : List Char := x.name.toList

mutual

/-- **Prints an expression.** -/
def Expr.print (l : Layout) : Expr → List Char
  | .call f args _ =>
    f.print l ++ (gapText l.here.before ++ (['('] ++ (l.list (Expr.prints l 0 args) ++ [')'])))
  | .assign x e _ =>
    x.print l ++ (gapText l.here.before ++ (['='] ++ (gapText l.here.after ++ e.print (l.part 0))))
  | .name x _ => x.print l
  | .string lit _ => lit.sourceForm.toList
  | .number _ text _ => text.toList

/-- Prints expressions, of which the first is the `i`-th part. -/
def Expr.prints (l : Layout) : Nat → List Expr → List (List Char)
  | _, [] => []
  | i, e :: es => e.print (l.part i) :: Expr.prints l (i + 1) es

end

section
variable (blank : Blank)

/-- The indentation of a line. -/
def margin (n : Nat) : List Char := List.replicate n blank.char

mutual

/-- **Prints a statement** at an indentation of `n` blanks.  With `cut`, its last line goes without a
line break. -/
def Stmt.print (l : Layout) (n : Nat) (cut : Bool) : Stmt → List Char
  | .line e _ => e.print l ++ l.here.line.text cut
  | .block b _ => ['d', 'o'] ++ Body.print l n cut b
  | .cond [] _ _ => []
  | .cond (br :: brs) o _ =>
    Branch.print ['i', 'f'] (l.part 0) n (cut && brs.isEmpty && o.isNone) br ++
      (Branch.prints l 1 n (cut && o.isNone) brs ++ Body.printElse (l.part (brs.length + 1)) n cut o)

/-- Prints a branch that starts with a keyword. -/
def Branch.print (word : List Char) (l : Layout) (n : Nat) (cut : Bool) : Branch → List Char
  | .mk e b =>
    word ++ (gapText l.here.afterWord ++ (e.print (l.part 0) ++ Body.print (l.part 1) n cut b))

/-- Prints `elif` branches, of which the first is the `i`-th part. -/
def Branch.prints (l : Layout) (i n : Nat) (cut : Bool) : List Branch → List Char
  | [] => []
  | br :: brs =>
    emptyText (l.part i).here.above ++ (margin blank n ++
      (Branch.print ['e', 'l', 'i', 'f'] (l.part i) n (cut && brs.isEmpty) br ++
        Branch.prints l (i + 1) n cut brs))

/-- Prints an `else` branch, if there is one. -/
def Body.printElse (l : Layout) (n : Nat) (cut : Bool) : Option Body → List Char
  | none => []
  | some b =>
    emptyText l.here.above ++ (margin blank n ++ (['e', 'l', 's', 'e'] ++ Body.print l n cut b))

/-- Prints the rest of a header line with the body below it. -/
def Body.print (l : Layout) (n : Nat) (cut : Bool) : Body → List Char
  | .mk ss _ => l.header ++ Stmt.prints l 0 (n + l.here.width) cut ss

/-- Prints statements on lines of their own, of which the first is the `i`-th part. -/
def Stmt.prints (l : Layout) (i n : Nat) (cut : Bool) : List Stmt → List Char
  | [] => []
  | s :: ss =>
    emptyText (l.part i).here.above ++ (margin blank n ++
      (Stmt.print (l.part i) n (cut && ss.isEmpty) s ++ Stmt.prints l (i + 1) n cut ss))

end

/-- Prints a function. -/
def FunDef.print (l : Layout) (cut : Bool) (f : FunDef) : List Char :=
  ['d', 'e', 'f'] ++ (gapText l.here.afterWord ++ (f.name.print l ++ (gapText l.here.before ++
    (['('] ++ ((l.part 0).list ((l.part 0).texts Ident.print 0 f.params) ++ ([')'] ++
      Body.print blank (l.part 1) 0 cut f.body))))))

/-- Prints functions, of which the first is the `i`-th part. -/
def FunDef.prints (l : Layout) (i : Nat) (cut : Bool) : List FunDef → List Char
  | [] => []
  | f :: fs =>
    emptyText (l.part i).here.above ++
      (f.print blank (l.part i) (cut && fs.isEmpty) ++ FunDef.prints l (i + 1) cut fs)

/-- How a source ends after its last line of code. -/
inductive Ending where
  /-- That line has no line break. -/
  | cut
  /-- Lines without code, and a last line of blanks and perhaps a comment. -/
  | tail (lines : List LineStyle) (gap : List Blank) (remark : Option Remark)

/-- Is the last line of code without a line break? -/
def Ending.isCut : Ending → Bool
  | cut => true
  | tail .. => false

/-- What stands after the last line of code. -/
def Ending.text : Ending → List Char
  | cut => []
  | tail ls g r => emptyText ls ++ (gapText g ++ remarkText r)

/-- **Prints a program.**  All its indentation is made of one blank. -/
def Program.print (l : Layout) (ending : Ending) (p : Program) : List Char :=
  FunDef.prints blank l 0 ending.isCut p.funs ++ ending.text

end

end Offside
