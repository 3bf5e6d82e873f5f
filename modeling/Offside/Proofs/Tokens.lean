import Offside.Proofs.Grammar.CompleteProgram

/-!
# Tokens of sources and of programs

A source can be cut into tokens without the grammar, from left to right and by the first character
of each token alone.  Some of its tokens are layout: line breaks, the colon at the end of a header
line, and a comma after the last item of a list.  The others are its essential tokens.  A program has
tokens too, those of its parts from left to right.

* the tokens of a source: `Token.scan`, and the essential ones among tokens: `Token.essential`;
* the tokens of a program: `Program.tokens`;
* names, literals and lists give their tokens: `Token.scan_word`, `Token.scan_number`,
  `Token.scan_string`, `Listed.scan_named`;
* **an expression gives its tokens**: `Expr.WrittenAt.scan`.
-/

namespace Offside

open Text Pattern

/-- A token of a source. -/
inductive Token where
  | keyword (word : String)
  | name (word : String)
  | number (text : String)
  /-- A string literal with its delimiters. -/
  | string (text : String)
  /-- A character that stands for itself. -/
  | mark (c : Char)
  | lineBreak
  deriving DecidableEq, Repr, Inhabited

namespace Token

/-! ### Cutting a source into tokens -/

/-- A keyword or a name. -/
def ofWord (w : List Char) : Token :=
  if w ∈ keywords then .keyword (String.ofList w) else .name (String.ofList w)

/-- The text up to and with the next three delimiters, and the rest. -/
def closeLong (q : Char) : List Char → Option (List Char × List Char)
  | [] => none
  | x :: cs =>
    if [q, q, q] <+: x :: cs then some ([q, q, q], cs.drop 2)
    else (closeLong q cs).map fun (t, k) => (x :: t, k)

/-- The text on this line up to and with the next delimiter, and the rest.  A backslash takes the
character after it along. -/
def closeShort (q : Char) : List Char → Option (List Char × List Char)
  | [] => none
  | '\\' :: x :: cs => (closeShort q cs).map fun (t, k) => ('\\' :: x :: t, k)
  | x :: cs =>
    if x = q then some ([q], cs)
    else if x = '\n' ∨ x = '\r' then none
    else (closeShort q cs).map fun (t, k) => (x :: t, k)

/-- The rest of a string literal after its first character, and the text after it. -/
def closeString (q : Char) (cs : List Char) : Option (List Char × List Char) :=
  if [q, q] <+: cs then (closeLong q (cs.drop 2)).map fun (t, k) => (q :: q :: t, k)
  else closeShort q cs

/-- The token that starts with the character, if one does, and the text after it.  Blanks and
comments are no tokens. -/
def lexeme (x : Char) (cs : List Char) : Option Token × List Char :=
  if nameHead.contains x then
    (some (ofWord (x :: cs.takeWhile CharClass.nameInner.contains)),
      cs.dropWhile CharClass.nameInner.contains)
  else if numberHeads.contains x then
    (some (.number (String.ofList (x :: cs.takeWhile isNumeral))), cs.dropWhile isNumeral)
  else if x = ' ' ∨ x = '\t' then (none, cs)
  else if x = '#' then (none, cs.dropWhile CharClass.notLineEnd.contains)
  else if x = '\n' ∨ x = '\r' then (some .lineBreak, cs)
  else if x = '\'' ∨ x = '"' then
    match closeString x cs with
    | some (t, k) => (some (.string (String.ofList (x :: t))), k)
    | none => (some (.mark x), cs)
  else (some (.mark x), cs)

theorem length_of_closeLong {q : Char} {cs t k : List Char} (h : closeLong q cs = some (t, k)) :
    k.length ≤ cs.length := by
  induction cs generalizing t with
  | nil => cases h
  | cons x cs ih =>
    rw [closeLong] at h
    split at h
    · cases h
      simp only [List.length_drop, List.length_cons]
      omega
    · obtain ⟨⟨t', k'⟩, h', heq⟩ := Option.map_eq_some_iff.mp h
      cases heq
      exact Nat.le_succ_of_le (ih h')

theorem length_of_closeShort {q : Char} {cs t k : List Char} (h : closeShort q cs = some (t, k)) :
    k.length ≤ cs.length := by
  fun_induction closeShort q cs generalizing t with
  | case1 => cases h
  | case2 x cs ih =>
    obtain ⟨⟨t', k'⟩, h', heq⟩ := Option.map_eq_some_iff.mp h
    cases heq
    exact Nat.le_succ_of_le (Nat.le_succ_of_le (ih h'))
  | case3 x cs =>
    cases h
    exact Nat.le_succ _
  | case4 => cases h
  | case5 x cs _ _ _ ih =>
    obtain ⟨⟨t', k'⟩, h', heq⟩ := Option.map_eq_some_iff.mp h
    cases heq
    exact Nat.le_succ_of_le (ih h')

theorem length_of_closeString {q : Char} {cs t k : List Char}
    (h : closeString q cs = some (t, k)) : k.length ≤ cs.length := by
  unfold closeString at h
  split at h
  · obtain ⟨⟨t', k'⟩, h', heq⟩ := Option.map_eq_some_iff.mp h
    cases heq
    have := length_of_closeLong h'
    simp only [List.length_drop] at this
    omega
  · exact length_of_closeShort h

theorem length_lexeme_le (x : Char) (cs : List Char) : (lexeme x cs).2.length ≤ cs.length := by
  unfold lexeme
  split
  · exact (List.dropWhile_suffix _).length_le
  split
  · exact (List.dropWhile_suffix _).length_le
  split
  · exact Nat.le_refl _
  split
  · exact (List.dropWhile_suffix _).length_le
  split
  · exact Nat.le_refl _
  split
  · split
    · next h => exact length_of_closeString h
    · exact Nat.le_refl _
  · exact Nat.le_refl _

/-- **The tokens of a source.** -/
def scan : List Char → List Token
  | [] => []
  | x :: cs => (lexeme x cs).1.toList ++ scan (lexeme x cs).2
termination_by cs => cs.length
decreasing_by exact Nat.lt_succ_of_le (length_lexeme_le x cs)

/-! ### Essential tokens -/

/-- The tokens of a line without the colon at the end of a header.  Header lines are those that start
with a keyword. -/
def withoutColon : List Token → List Token
  | .keyword w :: ts => .keyword w :: if ts.getLast? = some (.mark ':') then ts.dropLast else ts
  | ts => ts

/-- The tokens of a line without commas before a closing parenthesis.  A comma right after an opening
parenthesis, which has no item before it, stays; `opened` says whether that comes before. -/
def withoutCommas (opened : Bool) : List Token → List Token
  | [] => []
  | t :: ts =>
    if t = .mark ',' ∧ ts.head? = some (.mark ')') ∧ opened = false then withoutCommas false ts
    else t :: withoutCommas (t = .mark '(') ts

/-- The essential tokens of a line. -/
def ofLine (line : List Token) : List Token :=
  withoutCommas false (withoutColon line)

/-- **The essential tokens.** -/
def essential (ts : List Token) : List Token :=
  (ts.splitOn .lineBreak).flatMap ofLine

end Token

/-! ### The tokens of a program -/

/-- Parts with commas between them. -/
def Token.separated : List (List Token) → List Token
  | [] => []
  | t :: ts => t ++ ts.flatMap (.mark ',' :: ·)

/-- The token of a name. -/
def Ident.token (x : Ident) : Token := .name x.name

mutual

/-- The tokens of an expression. -/
def Expr.tokens : Expr → List Token
  | .call f args _ =>
    f.token :: .mark '(' :: (Token.separated (Expr.tokensEach args) ++ [.mark ')'])
  | .assign x e _ => x.token :: .mark '=' :: e.tokens
  | .name x _ => [x.token]
  | .string lit _ => [.string lit.sourceForm]
  | .number _ cs _ => [.number cs]

def Expr.tokensEach : List Expr → List (List Token)
  | [] => []
  | e :: es => e.tokens :: Expr.tokensEach es

end

mutual

/-- The tokens of a statement. -/
def Stmt.tokens : Stmt → List Token
  | .line e _ => e.tokens
  | .block b _ => .keyword "do" :: b.tokens
  | .cond [] o _ => Body.elseTokens o
  | .cond (br :: brs) o _ => Branch.tokens "if" br ++ (Branch.elifTokens brs ++ Body.elseTokens o)

/-- The tokens of a branch that starts with a keyword. -/
def Branch.tokens (word : String) : Branch → List Token
  | .mk e b => .keyword word :: (e.tokens ++ b.tokens)

def Branch.elifTokens : List Branch → List Token
  | [] => []
  | br :: brs => Branch.tokens "elif" br ++ Branch.elifTokens brs

def Body.elseTokens : Option Body → List Token
  | none => []
  | some b => .keyword "else" :: b.tokens

/-- The tokens of a body. -/
def Body.tokens : Body → List Token
  | .mk ss _ => Stmt.tokensAll ss

def Stmt.tokensAll : List Stmt → List Token
  | [] => []
  | s :: ss => s.tokens ++ Stmt.tokensAll ss

end

/-- The tokens of a function. -/
def FunDef.tokens (f : FunDef) : List Token :=
  .keyword "def" :: f.name.token :: .mark '(' ::
    (Token.separated (f.params.map fun x => [x.token]) ++ .mark ')' :: f.body.tokens)

/-- **The tokens of a program.** -/
def Program.tokens (p : Program) : List Token :=
  p.funs.flatMap FunDef.tokens

theorem Expr.tokensEach_eq_map (es : List Expr) : Expr.tokensEach es = es.map Expr.tokens := by
  induction es with
  | nil => rfl
  | cons e es ih => rw [Expr.tokensEach, ih, List.map_cons]

/-! ### Scanning what a source is made of -/

namespace Token

variable {x : Char} {t u k cs : List Char}

theorem scan_nil : scan [] = [] := by
  rw [scan]

theorem scan_cons : scan (x :: cs) = (lexeme x cs).1.toList ++ scan (lexeme x cs).2 := by
  rw [scan]

/-- Characters that go together are taken as far as they go. -/
theorem span_append {P : Char → Bool} (ht : ∀ y ∈ t, P y = true)
    (hk : ∀ y, k.head? = some y → P y = false) :
    (t ++ k).takeWhile P = t ∧ (t ++ k).dropWhile P = k := by
  have hnone : k.takeWhile P = [] ∧ k.dropWhile P = k := by
    cases k with
    | nil => exact ⟨rfl, rfl⟩
    | cons y k =>
      have hy := hk y rfl
      exact ⟨by simp [hy], by simp [hy]⟩
  rw [List.takeWhile_append_of_pos ht, List.dropWhile_append_of_pos ht, hnone.1, hnone.2,
    List.append_nil]
  exact ⟨rfl, rfl⟩

theorem scan_word (hx : nameHead.contains x = true)
    (hu : ∀ y ∈ u, CharClass.nameInner.contains y = true) (hk : Stops .nameInner k) :
    scan (x :: u ++ k) = ofWord (x :: u) :: scan k := by
  obtain ⟨htake, hdrop⟩ := span_append hu hk
  rw [List.cons_append, scan_cons, lexeme, if_pos hx, htake, hdrop]
  rfl

theorem scan_name {i : Ident} {pos : Nat} (h : i.WrittenAt pos t) (hk : Stops .nameInner k) :
    scan (t ++ k) = i.token :: scan k := by
  obtain ⟨⟨⟨x, u, rfl, hx, hu⟩, hkeyword⟩, rfl⟩ := h
  rw [scan_word hx hu hk, ofWord, if_neg hkeyword]
  rfl

theorem scan_keyword {w : List Char} (hw : w ∈ keywords) (hk : Stops .nameInner k) :
    scan (w ++ k) = .keyword (String.ofList w) :: scan k := by
  obtain ⟨x, u, rfl, hx⟩ : ∃ x u, w = x :: u ∧ nameHead.contains x = true := by
    simp only [keywords, List.mem_cons, List.not_mem_nil, or_false] at hw
    rcases hw with rfl | rfl | rfl | rfl | rfl <;> exact ⟨_, _, rfl, by decide⟩
  have hu := fun y hy => keywords_inner _ hw y (List.mem_cons_of_mem x hy)
  rw [scan_word hx hu hk, ofWord, if_pos hw]

theorem scan_number {κ : NumberKind} (h : κ.Spells t) (hk : NumberEnd k) :
    scan (t ++ k) = .number (String.ofList t) :: scan k := by
  obtain ⟨x, u, rfl, hx⟩ := h.head
  have hu : ∀ y ∈ u, isNumeral y = true := fun y hy =>
    NumberKind.isNumeral_of_uses (h.uses y (List.mem_cons_of_mem x hy))
  have hname : ¬ nameHead.contains x = true := by
    rw [stops_of_numberHead (t := u) hx x rfl]
    decide
  have hnumber : numberHeads.contains x = true := by simpa using hx
  obtain ⟨htake, hdrop⟩ := span_append hu hk
  rw [List.cons_append, scan_cons, lexeme, if_neg hname, if_pos hnumber, htake, hdrop]
  rfl

theorem scan_mark (hx : x ∈ ['(', ')', '=', ',', ':']) : scan (x :: k) = .mark x :: scan k := by
  have hlexeme : lexeme x k = (some (.mark x), k) := by
    simp only [List.mem_cons, List.not_mem_nil, or_false] at hx
    rcases hx with rfl | rfl | rfl | rfl | rfl <;> rfl
  rw [scan_cons, hlexeme]
  rfl

theorem scan_break (hx : x = '\n' ∨ x = '\r') : scan (x :: k) = .lineBreak :: scan k := by
  have hlexeme : lexeme x k = (some .lineBreak, k) := by
    rcases hx with rfl | rfl <;> rfl
  rw [scan_cons, hlexeme]
  rfl

theorem scan_spaces {a : List Char} (ha : Spaces a) : scan (a ++ k) = scan k := by
  induction a with
  | nil => rfl
  | cons x a ih =>
    have hlexeme : lexeme x (a ++ k) = (none, a ++ k) := by
      rcases space_contains_iff.mp (ha x (by simp)) with rfl | rfl <;> rfl
    rw [List.cons_append, scan_cons, hlexeme]
    exact ih fun y hy => ha y (List.mem_cons_of_mem x hy)

theorem scan_comment {b : List Char} (hb : Comment b) (hk : AtBreak k) :
    scan (b ++ k) = scan k := by
  rcases hb with rfl | ⟨u, rfl, hu⟩
  · rfl
  · have hlexeme : lexeme '#' (u ++ k) =
        (none, (u ++ k).dropWhile CharClass.notLineEnd.contains) := rfl
    rw [List.cons_append, scan_cons, hlexeme, (span_append hu hk.stops_notLineEnd).2]
    rfl

/-! ### Scanning string literals -/

theorem closeLong_append {q : Char} (h : LongBody q t) :
    closeLong q (t ++ ([q, q, q] ++ k)) = some (t ++ [q, q, q], k) := by
  induction t with
  | nil => simp [closeLong]
  | cons x t ih =>
    obtain ⟨hx, ht⟩ := h
    have hopen : ¬ [q, q, q] <+: x :: (t ++ ([q, q, q] ++ k)) := by
      rw [← List.append_assoc, ← List.cons_append, prefix_append_iff_of_length_le (by simp)]
      exact hx
    rw [List.cons_append, closeLong, if_neg hopen, ih ht]
    rfl

theorem closeShort_append {q : Char} (hq : IsQuote q) (h : ShortBody q t) :
    closeShort q (t ++ ([q] ++ k)) = some (t ++ [q], k) := by
  induction h with
  | nil =>
    rcases hq with rfl | rfl <;> rfl
  | @escaped x u _ ih =>
    rw [List.cons_append, List.cons_append, closeShort, ih]
    rfl
  | @plain x u hne hx _ ih =>
    simp only [CharClass.contains, Bool.and_eq_true, bne_iff_ne] at hx
    obtain ⟨⟨hquote, hlf⟩, hcr⟩ := hx
    have hbreak : ¬ (x = '\n' ∨ x = '\r') := not_or.mpr ⟨hlf, hcr⟩
    rw [List.cons_append, closeShort, if_neg hquote, if_neg hbreak, ih]
    · rfl
    · rintro y cs rfl
      exact absurd rfl hne

/-- A literal with single delimiters does not go on as one with three of them. -/
theorem not_prefix_of_shortBody {quote : Quote} (h : ShortBody quote.mark t) (hk : Delimited k) :
    ¬ [quote.mark, quote.mark] <+: t ++ ([quote.mark] ++ k) := by
  rintro ⟨r, hr⟩
  cases h with
  | nil =>
    simp only [List.cons_append, List.nil_append, List.cons.injEq, true_and] at hr
    have hhead := hk.head (x := quote.mark) (by rw [← hr]; rfl)
    cases quote <;> simp [Quote.mark, delimiters] at hhead
  | escaped _ =>
    simp only [List.cons_append, List.cons.injEq] at hr
    cases quote <;> simp [Quote.mark] at hr
  | plain _ hx _ =>
    simp only [List.cons_append, List.cons.injEq] at hr
    obtain ⟨rfl, -⟩ := hr
    simp [CharClass.contains] at hx

theorem closeString_long {q : Char} (h : LongBody q t) :
    closeString q (q :: q :: (t ++ [q, q, q]) ++ k) = some (q :: q :: (t ++ [q, q, q]), k) := by
  have hclose := closeLong_append (k := k) h
  rw [← List.append_assoc] at hclose
  rw [closeString, if_pos ⟨_, rfl⟩]
  change (closeLong q (t ++ [q, q, q] ++ k)).map _ = _
  rw [hclose]
  rfl

theorem closeString_short {quote : Quote} (h : ShortBody quote.mark t) (hk : Delimited k) :
    closeString quote.mark (t ++ [quote.mark] ++ k) = some (t ++ [quote.mark], k) := by
  rw [List.append_assoc, closeString, if_neg (not_prefix_of_shortBody h hk)]
  exact closeShort_append (isQuote_mark quote) h

theorem scan_quote {quote : Quote} (h : closeString quote.mark cs = some (t, k)) :
    scan (quote.mark :: cs) = .string (String.ofList (quote.mark :: t)) :: scan k := by
  have hlexeme : lexeme quote.mark cs =
      match closeString quote.mark cs with
      | some (t, k) => (some (.string (String.ofList (quote.mark :: t))), k)
      | none => (some (.mark quote.mark), cs) := by
    cases quote <;> rfl
  rw [scan_cons, hlexeme, h]
  rfl

theorem scan_string {lit : StrLit} (h : lit.Enclosed) (hk : Delimited k) :
    scan (lit.sourceForm.toList ++ k) = .string lit.sourceForm :: scan k := by
  have hform : lit.sourceForm = String.ofList lit.sourceForm.toList := String.ofList_toList.symm
  suffices hclose : ∃ t, lit.sourceForm.toList = lit.quote.mark :: t ∧
      closeString lit.quote.mark (t ++ k) = some (t, k) by
    obtain ⟨t, ht, hclose⟩ := hclose
    rw [hform, ht, String.toList_ofList]
    exact scan_quote hclose
  obtain ⟨content, quote, long⟩ := lit
  obtain ⟨body, rfl⟩ : ∃ body, content = String.ofList body := ⟨content.toList, by simp⟩
  unfold StrLit.Enclosed at h
  cases long with
  | true =>
    simp only [if_true, String.toList_ofList] at h
    exact ⟨_, StrLit.sourceForm_long quote body, closeString_long h⟩
  | false =>
    simp only [Bool.false_eq_true, if_false, String.toList_ofList] at h
    exact ⟨_, StrLit.sourceForm_short quote body, closeString_short h hk⟩

/-! ### Tokens without the commas that are layout -/

/-- The tokens that start an expression. -/
def starts : Token → Bool
  | .name _ | .number _ | .string _ => true
  | _ => false

/-- The tokens that end an expression or a list. -/
def ends : Token → Bool
  | .name _ | .number _ | .string _ => true
  | .mark c => c == ')'
  | _ => false

/-- Tokens of one line, which end a part of it, and what they are without commas that are layout. -/
structure Trims (opened : Bool) (us ts : List Token) : Prop where
  eq : withoutCommas opened us = ts
  last : ∀ x ∈ us.getLast?, x.ends = true
  inLine : .lineBreak ∉ us

/-- The tokens of an expression or a name, and what they are without commas that are layout. -/
structure Piece (us ts : List Token) : Prop where
  trims : ∀ opened, Trims opened us ts
  head : ∃ x vs, us = x :: vs ∧ x.starts = true

section
variable {opened : Bool} {us vs ts ss : List Token} {y : Token}

theorem Trims.nil : Trims opened [] [] :=
  ⟨rfl, by simp, by simp⟩

/-- A comma can stand before anything but a closing parenthesis. -/
theorem Trims.cons (h : Trims (y = .mark '(') us ts) (hne : us ≠ []) (hy : y ≠ .lineBreak)
    (hcomma : y = .mark ',' → us.head? ≠ some (.mark ')')) : Trims opened (y :: us) (y :: ts) where
  eq := by
    have hkeep : ¬ (y = .mark ',' ∧ us.head? = some (.mark ')') ∧ opened = false) :=
      fun ⟨h₁, h₂, _⟩ => hcomma h₁ h₂
    rw [withoutCommas, if_neg hkeep, h.eq]
  last := by
    obtain ⟨z, vs, rfl⟩ := List.exists_cons_of_ne_nil hne
    rw [List.getLast?_cons_cons]
    exact h.last
  inLine := by
    simp [h.inLine, hy.symm]

theorem Trims.closing : Trims opened [.mark ')'] [.mark ')'] :=
  ⟨by simp [withoutCommas], by simp [ends], by simp⟩

theorem Trims.comma_closing : Trims false [.mark ',', .mark ')'] [.mark ')'] :=
  ⟨by simp [withoutCommas], by simp [ends], by simp⟩

theorem withoutCommas_append (hne : us ≠ []) (hlast : ∀ x ∈ us.getLast?, x.ends = true) :
    withoutCommas opened (us ++ vs) = withoutCommas opened us ++ withoutCommas false vs := by
  induction us generalizing opened with
  | nil => exact absurd rfl hne
  | cons x us ih =>
    by_cases hus : us = []
    · -- The last token is neither of the marks that have a say in what comes after them.
      subst hus
      have hx : x.ends = true := hlast x (by simp)
      have hopen : x ≠ .mark '(' := by
        rintro rfl
        cases hx
      have hcomma : x ≠ .mark ',' := by
        rintro rfl
        cases hx
      simp [withoutCommas, hopen, hcomma]
    · obtain ⟨hlast', hhead⟩ : (∀ y ∈ us.getLast?, y.ends = true) ∧ (us ++ vs).head? = us.head? := by
        obtain ⟨y, ys, rfl⟩ := List.exists_cons_of_ne_nil hus
        rw [List.getLast?_cons_cons] at hlast
        exact ⟨hlast, rfl⟩
      rw [List.cons_append, withoutCommas, hhead, ih hus hlast', ih hus hlast', withoutCommas]
      split <;> rfl

theorem Trims.append (h : Trims opened us ts) (hne : us ≠ []) (h' : Trims false vs ss) :
    Trims opened (us ++ vs) (ts ++ ss) where
  eq := by rw [withoutCommas_append hne h.last, h.eq, h'.eq]
  last := by
    cases hvs : vs.getLast? with
    | none => simpa [hvs] using h.last
    | some x => simpa [hvs] using h'.last
  inLine := by simp [h.inLine, h'.inLine]

theorem Piece.ne_nil (h : Piece us ts) : us ≠ [] := by
  obtain ⟨x, vs, rfl, -⟩ := h.head
  simp

theorem Piece.head_ne (h : Piece us ts) (vs : List Token) (c : Char) :
    (us ++ vs).head? ≠ some (.mark c) := by
  obtain ⟨x, us, rfl, hx⟩ := h.head
  intro heq
  cases heq
  cases hx

theorem Piece.single (hy : y.starts = true) : Piece [y] [y] := by
  cases y with
  | name | number | string =>
    exact ⟨fun _ => ⟨by simp [withoutCommas], by simp [ends], by simp⟩, _, [], rfl, hy⟩
  | keyword | mark | lineBreak => cases hy

end

/-- Before the text `k`, the text `t` gives tokens that make up the tokens `ts`. -/
def Gives (t k : List Char) (ts : List Token) : Prop :=
  ∃ us, scan (t ++ k) = us ++ scan k ∧ Piece us ts

end Token

/-! ### Scanning lists and expressions -/

namespace Listed

open Token

variable {α : Type} {R : Nat → List Char → α → Prop} {tokens : α → List Token} {pos : Nat}
  {u k : List Char} {xs : List α}

/-- What stands after an item of a list, up to the closing parenthesis. -/
theorem scan_more (h : Listed R false pos u xs)
    (hitem : ∀ x ∈ xs, ∀ {pos t k}, R pos t x → Delimited k → Gives t k (tokens x)) :
    ∃ us, Token.scan (u ++ ([')'] ++ k)) = us ++ Token.scan k ∧
      Trims false us ((xs.map tokens).flatMap (.mark ',' :: ·) ++ [.mark ')']) := by
  have hclose : Token.scan ([')'] ++ k) = [.mark ')'] ++ Token.scan k := scan_mark (by decide)
  -- `Listed` with `true` is not reached again after the first item.
  generalize hstart : false = start at h
  induction h with
  | nil ha => exact ⟨_, by rw [scan_spaces ha, hclose], .closing⟩
  | comma ha hc =>
    refine ⟨[.mark ',', .mark ')'], ?_, .comma_closing⟩
    rw [List.append_assoc, scan_spaces ha, List.append_assoc, List.singleton_append,
      scan_mark (by decide), scan_spaces hc, hclose]
    rfl
  | first => cases hstart
  | @next pos a b t u x xs ha hb hx hu ih =>
    obtain ⟨vs, hvs, htrims⟩ := ih (fun y hy => hitem y (List.mem_cons_of_mem x hy)) hstart
    obtain ⟨us, hus, hpiece⟩ := hitem x (by simp) hx hu.delimited
    refine ⟨.mark ',' :: (us ++ vs), ?_, ?_⟩
    · simp only [List.append_assoc]
      rw [scan_spaces ha, List.singleton_append, scan_mark (by decide), scan_spaces hb, hus, hvs]
      simp
    · have hall := (hpiece.trims false).append hpiece.ne_nil htrims
      have hcons : Trims false (.mark ',' :: (us ++ vs)) _ :=
        .cons hall (by simp [hpiece.ne_nil]) (by simp) fun _ => hpiece.head_ne vs ')'
      simpa using hcons

/-- **What stands between two parentheses,** with the closing one. -/
theorem scan (h : Listed R true pos u xs)
    (hitem : ∀ x ∈ xs, ∀ {pos t k}, R pos t x → Delimited k → Gives t k (tokens x)) :
    ∃ us, us ≠ [] ∧ Token.scan (u ++ ([')'] ++ k)) = us ++ Token.scan k ∧
      Trims true us (separated (xs.map tokens) ++ [.mark ')']) := by
  cases h with
  | nil ha =>
    refine ⟨[.mark ')'], by simp, ?_, .closing⟩
    rw [scan_spaces ha]
    exact scan_mark (by decide)
  | first ha hx hu =>
    obtain ⟨vs, hvs, htrims⟩ := hu.scan_more (k := k) fun y hy => hitem y (List.mem_cons_of_mem _ hy)
    obtain ⟨us, hus, hpiece⟩ := hitem _ (by simp) hx hu.delimited
    refine ⟨us ++ vs, by simp [hpiece.ne_nil], ?_, ?_⟩
    · rw [List.append_assoc, scan_spaces ha, List.append_assoc, hus, hvs, List.append_assoc]
    · simpa [separated] using (hpiece.trims true).append hpiece.ne_nil htrims

/-- **A name with a list in parentheses.** -/
theorem scan_named {f : Ident} {pos' : Nat} {t a : List Char} (hf : f.WrittenAt pos' t)
    (ha : Spaces a) (h : Listed R true pos u xs)
    (hitem : ∀ x ∈ xs, ∀ {pos t k}, R pos t x → Delimited k → Gives t k (tokens x)) :
    Gives (t ++ (a ++ (['('] ++ (u ++ [')'])))) k
      (f.token :: .mark '(' :: (separated (xs.map tokens) ++ [.mark ')'])) := by
  obtain ⟨us, hne, hus, htrims⟩ := h.scan (k := k) hitem
  refine ⟨f.token :: .mark '(' :: us, ?_, fun opened => ?_, _, _, rfl, rfl⟩
  · simp only [List.append_assoc]
    rw [scan_name hf (stops_gap ha (by decide)), scan_spaces ha, List.singleton_append,
      scan_mark (by decide), hus]
    rfl
  · have hopen : Trims false (.mark '(' :: us) _ := .cons htrims hne (by simp) (by simp)
    exact .cons hopen (by simp) (by simp [Ident.token]) (by simp [Ident.token])

end Listed

open Token in
theorem Ident.WrittenAt.scan {pos : Nat} {t k : List Char} {x : Ident} (h : x.WrittenAt pos t)
    (hk : Delimited k) : Gives t k [x.token] :=
  ⟨[x.token], scan_name h hk.stops_nameInner, .single rfl⟩

open Token in
/-- **An expression gives its tokens.** -/
theorem Expr.WrittenAt.scan {pos : Nat} {t k : List Char} {e : Expr} (h : e.WrittenAt pos t)
    (hk : Delimited k) : Gives t k e.tokens := by
  induction e using Expr.induction generalizing pos t k with
  | call f args span ih =>
    cases h with
    | call hf ha hargs =>
      rw [Expr.tokens, Expr.tokensEach_eq_map]
      exact hargs.scan_named hf ha fun e he {pos t k} => ih e he
  | assign x e span ih =>
    cases h with
    | assign hx ha hb he =>
      obtain ⟨us, hus, hpiece⟩ := ih he hk
      refine ⟨x.token :: .mark '=' :: us, ?_, fun opened => ?_, _, _, rfl, rfl⟩
      · simp only [List.append_assoc]
        rw [scan_name hx (stops_gap ha (by decide)), scan_spaces ha, List.singleton_append,
          scan_mark (by decide), scan_spaces hb, hus]
        rfl
      · have hequals : Trims false (.mark '=' :: us) _ :=
          .cons (hpiece.trims _) hpiece.ne_nil (by simp) (by simp)
        exact .cons hequals (by simp) (by simp [Ident.token]) (by simp [Ident.token])
  | name x span =>
    cases h with
    | name hx => exact hx.scan hk
  | string lit span =>
    cases h with
    | string hlit => exact ⟨[.string lit.sourceForm], scan_string hlit hk, .single rfl⟩
  | number κ cs span =>
    cases h with
    | @number _ _ t hn =>
      exact ⟨[.number (String.ofList t)], scan_number hn hk.numberEnd, .single rfl⟩

end Offside
