import Offside.Proofs.RoundTrip
import Offside.Proofs.Tokens

/-!
# Parsing loses and invents nothing

Whatever source parses, its program is one that can be written, and the essential tokens of the
source are just those of the program in the same order.  So no statement, branch, argument or
parameter is lost, taken twice or put elsewhere.

* lines of a source: `Token.essential_lineEnd`, `Token.essential_header`,
  `Token.essential_emptyLines`;
* statements and functions give their tokens: `Stmt.Scanned`, `FunDef.WrittenAt.scanned`;
* what is read is well-formed: `Expr.WrittenAt.wellFormed`, `FunDef.WrittenAt.wellFormed`;
* **parsing loses and invents nothing**: `Program.parse_tokens`.
-/

namespace Offside

open Text Pattern

/-! ### Lines of a source -/

namespace Token

variable {us vs ts : List Token} {v k : List Char}

theorem essential_of_line (h : .lineBreak ∉ us) : essential us = ofLine us := by
  have hsplit : us.splitOn .lineBreak = [us] :=
    List.splitOnP_eq_singleton fun x hx => by
      simpa using ne_of_mem_of_not_mem hx h
  rw [essential, hsplit, List.flatMap_singleton]

theorem essential_append (h : .lineBreak ∉ us) :
    essential (us ++ .lineBreak :: vs) = ofLine us ++ essential vs := by
  have hsplit : (us ++ .lineBreak :: vs).splitOn .lineBreak = us :: vs.splitOn .lineBreak :=
    List.splitOnP_append_cons_of_forall_mem (fun x hx => by
      simpa using ne_of_mem_of_not_mem hx h) _ (by simp) _
  rw [essential, hsplit, List.flatMap_cons, essential]

theorem essential_lineBreak : essential (.lineBreak :: vs) = essential vs :=
  essential_append (List.not_mem_nil)

theorem essential_break {n : List Char} (hn : LineBreak n) (h : .lineBreak ∉ us) :
    essential (us ++ scan (n ++ k)) = ofLine us ++ essential (scan k) := by
  rcases hn with rfl | rfl | rfl
  · rw [List.singleton_append, scan_break (Or.inl rfl), essential_append h]
  · -- A carriage return and a line feed end two lines, of which the second has no tokens.
    rw [List.cons_append, List.singleton_append, scan_break (Or.inr rfl), scan_break (Or.inl rfl),
      essential_append h, essential_lineBreak]
  · rw [List.singleton_append, scan_break (Or.inr rfl), essential_append h]

/-- **A line ends.** -/
theorem essential_lineEnd (hv : LineEnd v k) (h : .lineBreak ∉ us) :
    essential (us ++ scan (v ++ k)) = ofLine us ++ essential (scan k) := by
  obtain ⟨a, b, n, rfl, ha, hb, hn⟩ := hv
  have hbreak : AtBreak (n ++ k) := by
    rcases hn with hn | ⟨rfl, rfl⟩
    · exact .of_lineBreak hn.1
    · simp [AtBreak]
  rw [List.append_assoc, scan_spaces ha, List.append_assoc, scan_comment hb hbreak]
  rcases hn with hn | ⟨rfl, rfl⟩
  · exact essential_break hn.1 h
  · rw [List.append_nil, scan_nil, List.append_nil, essential_of_line h]
    simp [essential, ofLine, withoutColon, withoutCommas]

theorem essential_emptyLines {b : List Char} (hb : EmptyLines b) :
    essential (scan (b ++ k)) = essential (scan k) := by
  induction hb with
  | nil => rfl
  | cons hl _ ih =>
    obtain ⟨a, c, n, rfl, ha, hc, hn⟩ := hl
    simp only [List.append_assoc]
    rw [scan_spaces ha, scan_comment hc (.of_lineBreak hn)]
    exact (essential_break hn List.not_mem_nil).trans ih

theorem ofLine_piece (h : Piece us ts) : ofLine us = ts := by
  have hcolon : withoutColon us = us := by
    obtain ⟨x, us, rfl, hx⟩ := h.head
    cases x with
    | name | number | string => rfl
    | keyword | mark | lineBreak => cases hx
  rw [ofLine, hcolon, (h.trims false).eq]

theorem withoutColon_header {w : String} {c : List Token} (h : Trims false us ts)
    (hc : c = [] ∨ c = [.mark ':']) : withoutColon (.keyword w :: (us ++ c)) = .keyword w :: us := by
  rw [withoutColon]
  rcases hc with rfl | rfl
  · have hlast : us.getLast? ≠ some (.mark ':') := by
      intro heq
      have := h.last _ heq
      cases this
    rw [List.append_nil, if_neg hlast]
  · rw [List.getLast?_concat, if_pos rfl, List.dropLast_concat]

/-- **A header line ends**, with the empty lines below it. -/
theorem essential_header {w : String} (h : Trims false us ts) (hv : Header v k) :
    essential (.keyword w :: (us ++ scan (v ++ k))) = .keyword w :: (ts ++ essential (scan k)) := by
  obtain ⟨a, c, e, b, rfl, ha, hc, he, hb⟩ := hv
  obtain ⟨cs, hcs, hscan⟩ : ∃ cs, (cs = [] ∨ cs = [.mark ':']) ∧
      scan (c ++ (e ++ (b ++ k))) = cs ++ scan (e ++ (b ++ k)) := by
    rcases hc with rfl | rfl
    · exact ⟨[], Or.inl rfl, rfl⟩
    · exact ⟨[.mark ':'], Or.inr rfl, scan_mark (by decide)⟩
  have hline : .lineBreak ∉ .keyword w :: (us ++ cs) := by
    rcases hcs with rfl | rfl <;> simp [h.inLine]
  have hof : ofLine (.keyword w :: (us ++ cs)) = .keyword w :: ts := by
    rw [ofLine, withoutColon_header h hcs, withoutCommas, if_neg (by simp)]
    exact congrArg _ h.eq
  have htail := (essential_lineEnd he hline).trans (congrArg _ (essential_emptyLines hb))
  simp only [List.append_assoc]
  rw [scan_spaces ha, hscan]
  simpa [hof] using htail

end Token

/-! ### Statements -/

theorem Pattern.Stops.append {K : CharClass} {g k : List Char} (h : Stops K g) (hne : g ≠ []) :
    Stops K (g ++ k) := by
  obtain ⟨x, g, rfl⟩ := List.exists_cons_of_ne_nil hne
  exact h

theorem Spaces.stops_nameInner {g : List Char} (h : Spaces g) : Stops .nameInner g := by
  intro x hx
  rcases space_contains_iff.mp (h x (List.mem_of_head? hx)) with rfl | rfl <;> decide

open Token

section
variable {ind : List (List Char)} {pos : Nat} {t k : List Char}

/-- A statement that gives its tokens wherever it is written. -/
def Stmt.Scanned (s : Stmt) : Prop :=
  ∀ {ind pos t k}, (∀ l ∈ ind, Spaces l) → s.WrittenAt ind pos t k →
    essential (scan (t ++ k)) = s.tokens ++ essential (scan k)

/-- A body that gives its tokens wherever it is written. -/
def Body.Scanned (b : Body) : Prop :=
  ∀ {ind pos t k}, (∀ l ∈ ind, Spaces l) → b.WrittenAt ind pos t k →
    essential (scan (t ++ k)) = b.tokens ++ essential (scan k)

/-- The code at an indentation below some empty lines. -/
theorem Token.essential_indented {b : List Char} (hind : ∀ l ∈ ind, Spaces l) (hb : EmptyLines b) :
    essential (scan (b ++ (ind.flatten ++ k))) = essential (scan k) := by
  rw [essential_emptyLines hb, scan_spaces (.flatten hind)]

/-- A header line, of which the tokens `us` are read, and its body. -/
theorem Block.WrittenAt.scanned {b : Body} {w : String} {us ts : List Token}
    (h : Block.WrittenAt ind pos t k b) (hind : ∀ l ∈ ind, Spaces l) (hb : b.Scanned)
    (hus : Trims false us ts) :
    essential (.keyword w :: (us ++ scan (t ++ k))) =
      .keyword w :: (ts ++ (b.tokens ++ essential (scan k))) := by
  cases h with
  | mk hheader hbody => rw [List.append_assoc, essential_header hus hheader, hb hind hbody]

theorem Branch.WrittenAt.scanned {w : List Char} {br : Branch} (hw : w ∈ keywords)
    (h : Branch.WrittenAt w ind pos t k br) (hind : ∀ l ∈ ind, Spaces l) (hb : br.body.Scanned) :
    essential (scan (t ++ k)) = br.tokens (String.ofList w) ++ essential (scan k) := by
  cases h with
  | @mk _ _ _ e b g t u _ hg hstop he hblock =>
    obtain ⟨us, hus, hpiece⟩ := he.scan hblock.delimited
    have hkeyword : Stops .nameInner (g ++ (t ++ (u ++ k))) := by
      obtain ⟨x, v, rfl, -⟩ := he.head
      rw [← List.append_assoc]
      exact hstop.append (by simp)
    simp only [List.append_assoc]
    rw [scan_keyword hw hkeyword, scan_spaces hg, hus, hblock.scanned hind hb (hpiece.trims false)]
    simp [Branch.tokens]

theorem Elifs.WrittenAt.scanned {brs : List Branch} (h : Elifs.WrittenAt ind pos t k brs)
    (hind : ∀ l ∈ ind, Spaces l) (hbrs : ∀ br ∈ brs, br.body.Scanned) :
    essential (scan (t ++ k)) = Branch.elifTokens brs ++ essential (scan k) := by
  induction brs generalizing pos t with
  | nil =>
    cases h
    rfl
  | cons br brs ih =>
    cases h with
    | cons hb hbr hrest =>
      have hfirst := hbr.scanned (by decide) hind (hbrs br (by simp))
      have hothers := ih hrest fun br' h' => hbrs br' (List.mem_cons_of_mem br h')
      simp only [List.append_assoc]
      rw [essential_indented hind hb, hfirst, hothers, Branch.elifTokens, List.append_assoc]

theorem Else.WrittenAt.scanned {o : Option Body} (h : Else.WrittenAt ind pos t k o)
    (hind : ∀ l ∈ ind, Spaces l) (ho : ∀ b ∈ o, b.Scanned) :
    essential (scan (t ++ k)) = Body.elseTokens o ++ essential (scan k) := by
  cases h with
  | absent => rfl
  | present hb hblock =>
    simp only [List.append_assoc]
    rw [essential_indented hind hb, scan_keyword (by decide) hblock.delimited.stops_nameInner]
    exact hblock.scanned hind (ho _ rfl) .nil

theorem Lines.WrittenAt.scanned {ss : List Stmt} (h : Lines.WrittenAt ind pos t k ss)
    (hind : ∀ l ∈ ind, Spaces l) (hss : ∀ s ∈ ss, s.Scanned) :
    essential (scan (t ++ k)) = Stmt.tokensAll ss ++ essential (scan k) := by
  induction ss generalizing pos t with
  | nil =>
    cases h
    rfl
  | cons s ss ih =>
    cases h with
    | cons hb hs hrest =>
      have hothers := ih hrest fun s' h' => hss s' (List.mem_cons_of_mem s h')
      simp only [List.append_assoc]
      rw [essential_indented hind hb, hss s (by simp) hind hs, hothers, Stmt.tokensAll, List.append_assoc]

/-- **Statements and bodies give their tokens.** -/
theorem scanned_cases : Stmt.Cases Stmt.Scanned Body.Scanned where
  line e span := by
    intro ind pos t k hind h
    cases h with
    | line he hv =>
      obtain ⟨us, hus, hpiece⟩ := he.scan hv.delimited
      rw [List.append_assoc, hus, essential_lineEnd hv (hpiece.trims false).inLine,
        ofLine_piece hpiece, Stmt.tokens]
  block b span hb := by
    intro ind pos t k hind h
    cases h with
    | block hblock =>
      rw [List.append_assoc, scan_keyword (by decide) hblock.delimited.stops_nameInner]
      exact hblock.scanned hind hb .nil
  cond brs o span hbrs ho := by
    intro ind pos t k hind h
    cases h with
    | @cond _ _ br brs _ _ _ _ _ hbr helifs helse =>
      have hfirst := hbr.scanned (by decide) hind (hbrs br (by simp))
      have hothers := helifs.scanned hind fun br' h' => hbrs br' (List.mem_cons_of_mem br h')
      have hlast := helse.scanned hind ho
      simp only [List.append_assoc]
      rw [hfirst, hothers, hlast, Stmt.tokens, List.append_assoc, List.append_assoc]
  body ss span hss := by
    intro ind pos t k hind h
    cases h with
    | @mk _ _ s ss own _ _ _ hne hown hs hlines =>
      have hind' : ∀ l ∈ own :: ind, Spaces l := List.forall_mem_cons.mpr ⟨hown, hind⟩
      have hothers := hlines.scanned hind' fun s' h' => hss s' (List.mem_cons_of_mem s h')
      simp only [List.append_assoc]
      rw [scan_spaces (.flatten hind), scan_spaces hown, hss s (by simp) hind' hs, hothers,
        Body.tokens, Stmt.tokensAll, List.append_assoc]

/-! ### Functions -/

theorem FunDef.WrittenAt.scanned {f : FunDef} (h : f.WrittenAt pos t k) :
    essential (scan (t ++ k)) = f.tokens ++ essential (scan k) := by
  cases h with
  | @mk f ps body g t a l u _ hne hg hf ha hps hblock =>
    obtain ⟨us, hus, hpiece⟩ :=
      hps.scan_named (k := u ++ k) hf ha fun x _ {pos t k} => Ident.WrittenAt.scan
    have hall := hblock.scanned (w := "def") (by simp) (scanned_cases.body' body)
      (hpiece.trims false)
    simp only [List.append_assoc] at hus ⊢
    rw [scan_keyword (by decide) (hg.stops_nameInner.append hne), scan_spaces hg, hus]
    simpa [FunDef.tokens] using hall

theorem Defs.WrittenAt.scanned {fs : List FunDef} (h : Defs.WrittenAt pos t k fs) :
    essential (scan (t ++ k)) = fs.flatMap FunDef.tokens ++ essential (scan k) := by
  induction h with
  | nil => rfl
  | cons hb hf _ ih =>
    simp only [List.append_assoc]
    rw [essential_emptyLines hb, hf.scanned, ih, List.flatMap_cons, List.append_assoc]

/-! ### What is read is well-formed -/

theorem Ident.WrittenAt.wellFormed {x : Ident} (h : x.WrittenAt pos t) : x.wellFormed = true := by
  obtain ⟨hname, rfl⟩ := h
  refine Rule.spells_iff.mpr ⟨_, takes_name_iff.mpr ⟨?_, ?_, rfl⟩⟩
  · rwa [String.toList_ofList]
  · intro y hy
    cases hy

theorem StrLit.Enclosed.wellFormed {lit : StrLit} (h : lit.Enclosed) : lit.wellFormed = true := by
  obtain ⟨content, quote, long⟩ := lit
  obtain ⟨body, rfl⟩ : ∃ body, content = String.ofList body := ⟨content.toList, by simp⟩
  refine Rule.spells_iff.mpr ?_
  unfold StrLit.Enclosed at h
  cases long with
  | true =>
    simp only [if_true, String.toList_ofList] at h
    rw [StrLit.sourceForm_long]
    exact ⟨_, takes_longString_iff.mpr ⟨_, body, isQuote_mark quote, rfl, h, rfl⟩⟩
  | false =>
    simp only [Bool.false_eq_true, if_false, String.toList_ofList] at h
    rw [StrLit.sourceForm_short]
    exact ⟨_, takes_string_iff.mpr ⟨_, body, isQuote_mark quote, rfl, h, rfl⟩⟩

theorem NumberKind.Spells.rule_spells {κ : NumberKind} (h : κ.Spells t) :
    κ.rule.spells t = true := by
  refine Rule.spells_iff.mpr ⟨_, takes_number h ?_⟩
  intro y hy
  cases hy

/-- The items of a list are all written somewhere. -/
theorem Listed.exists_written {α : Type} {R : Nat → List Char → α → Prop} {start : Bool}
    {xs : List α} (h : Listed R start pos t xs) : ∀ x ∈ xs, ∃ pos t, R pos t x := by
  induction h with
  | nil _ => simp
  | comma _ _ => simp
  | first _ hx _ ih => exact List.forall_mem_cons.mpr ⟨⟨_, _, hx⟩, ih⟩
  | next _ _ hx _ ih => exact List.forall_mem_cons.mpr ⟨⟨_, _, hx⟩, ih⟩

theorem Expr.WrittenAt.wellFormed {e : Expr} (h : e.WrittenAt pos t) : e.wellFormed = true := by
  induction e using Expr.induction generalizing pos t with
  | call f args span ih =>
    cases h with
    | call hf _ hargs =>
      have hall : Expr.allWellFormed args = true := Expr.allWellFormed_iff.mpr fun a ha => by
        obtain ⟨pos, t, h⟩ := hargs.exists_written a ha
        exact ih a ha h
      rw [Expr.wellFormed, hf.wellFormed, hall]
      rfl
  | assign x e span ih =>
    cases h with
    | assign hx _ _ he =>
      rw [Expr.wellFormed, hx.wellFormed, ih he]
      rfl
  | name x span =>
    cases h with
    | name hx => exact hx.wellFormed
  | string lit span =>
    cases h with
    | string hlit => exact hlit.wellFormed
  | number κ cs span =>
    cases h with
    | number hn =>
      rw [Expr.wellFormed, String.toList_ofList]
      exact hn.rule_spells

/-- A statement that is well-formed wherever it is written. -/
def Stmt.Sound (s : Stmt) : Prop :=
  ∀ {ind pos t k}, s.WrittenAt ind pos t k → s.wellFormed = true

/-- A body that is well-formed wherever it is written. -/
def Body.Sound (b : Body) : Prop :=
  ∀ {ind pos t k}, b.WrittenAt ind pos t k → b.wellFormed = true

theorem Block.WrittenAt.wellFormed {b : Body} (h : Block.WrittenAt ind pos t k b) (hb : b.Sound) :
    b.wellFormed = true := by
  cases h with
  | mk _ hbody => exact hb hbody

theorem Branch.WrittenAt.wellFormed {w : List Char} {br : Branch}
    (h : Branch.WrittenAt w ind pos t k br) (hb : br.body.Sound) :
    br.test.wellFormed = true ∧ br.body.wellFormed = true := by
  cases h with
  | mk _ _ he hblock => exact ⟨he.wellFormed, hblock.wellFormed hb⟩

theorem Elifs.WrittenAt.wellFormed {brs : List Branch} (h : Elifs.WrittenAt ind pos t k brs)
    (hbrs : ∀ br ∈ brs, br.body.Sound) :
    ∀ br ∈ brs, br.test.wellFormed = true ∧ br.body.wellFormed = true := by
  induction brs generalizing pos t with
  | nil => simp
  | cons br brs ih =>
    cases h with
    | cons _ hbr hrest =>
      have hothers := ih hrest fun br' h' => hbrs br' (List.mem_cons_of_mem br h')
      exact List.forall_mem_cons.mpr ⟨hbr.wellFormed (hbrs br (by simp)), hothers⟩

theorem Lines.WrittenAt.wellFormed {ss : List Stmt} (h : Lines.WrittenAt ind pos t k ss)
    (hss : ∀ s ∈ ss, s.Sound) : ∀ s ∈ ss, s.wellFormed = true := by
  induction ss generalizing pos t with
  | nil => simp
  | cons s ss ih =>
    cases h with
    | cons _ hs hrest =>
      have hothers := ih hrest fun s' h' => hss s' (List.mem_cons_of_mem s h')
      exact List.forall_mem_cons.mpr ⟨hss s (by simp) hs, hothers⟩

theorem sound_cases : Stmt.Cases Stmt.Sound Body.Sound where
  line e span := by
    intro ind pos t k h
    cases h with
    | line he _ => exact he.wellFormed
  block b span hb := by
    intro ind pos t k h
    cases h with
    | block hblock => exact hblock.wellFormed hb
  cond brs o span hbrs ho := by
    intro ind pos t k h
    cases h with
    | @cond _ _ br brs _ _ _ _ _ hbr helifs helse =>
      have hfirst := hbr.wellFormed (hbrs br (by simp))
      have hothers := helifs.wellFormed fun br' h' => hbrs br' (List.mem_cons_of_mem br h')
      have hall := Branch.allWellFormed_iff.mpr (List.forall_mem_cons.mpr ⟨hfirst, hothers⟩)
      have helse' : Body.noneOrWellFormed o = true := by
        cases helse with
        | absent => rfl
        | present _ hblock => exact hblock.wellFormed (ho _ rfl)
      rw [Stmt.wellFormed, hall, helse']
      rfl
  body ss span hss := by
    intro ind pos t k h
    cases h with
    | @mk _ _ s ss _ _ _ _ _ _ hs hlines =>
      have hothers := hlines.wellFormed fun s' h' => hss s' (List.mem_cons_of_mem s h')
      have hall := Stmt.allWellFormed_iff.mpr
        (List.forall_mem_cons.mpr ⟨hss s (by simp) hs, hothers⟩)
      rw [Body.wellFormed, hall]
      rfl

theorem FunDef.WrittenAt.wellFormed {f : FunDef} (h : f.WrittenAt pos t k) :
    f.wellFormed = true := by
  cases h with
  | mk _ _ hf _ hps hblock =>
    have hparams : ∀ x ∈ _, Ident.wellFormed x = true := fun x hx => by
      obtain ⟨pos, t, hx⟩ := hps.exists_written x hx
      exact hx.wellFormed
    have hbody := hblock.wellFormed (sound_cases.body' _)
    simpa [FunDef.wellFormed, hf.wellFormed, hbody] using hparams

theorem Defs.WrittenAt.wellFormed {fs : List FunDef} (h : Defs.WrittenAt pos t k fs) :
    ∀ f ∈ fs, f.wellFormed = true := by
  induction h with
  | nil => simp
  | cons _ hf _ ih => exact List.forall_mem_cons.mpr ⟨hf.wellFormed, ih⟩

end

/-! ### Programs -/

namespace Program

theorem Written.wellFormed {cs : List Char} {p : Program} (h : p.Written cs) :
    p.wellFormed = true := by
  obtain ⟨t, b, z, -, hdefs, hne, -⟩ := h
  simpa [Program.wellFormed, hne] using hdefs.wellFormed

theorem Written.scanned {cs : List Char} {p : Program} (h : p.Written cs) :
    essential (scan cs) = p.tokens := by
  obtain ⟨t, b, z, rfl, hdefs, -, hb, ⟨a, c, rfl, ha, hc⟩, -⟩ := h
  have hend : scan (a ++ c) = [] := by
    have hcomment := scan_comment (k := []) hc (by simp [AtBreak])
    rw [List.append_nil] at hcomment
    rw [scan_spaces ha, hcomment, scan_nil]
  rw [hdefs.scanned, essential_emptyLines hb, hend]
  exact List.append_nil _

/-- **Parsing loses and invents nothing.**  Whatever source parses, its program is well-formed: it has
a function, no body is empty, no `if` is without a branch, and all names and literals are those of
their rules.  The essential tokens of the source are those of the program. -/
theorem parse_tokens {source : String} {p : Program} (h : parse source = .ok p) :
    p.wellFormed = true ∧ essential (scan source.toList) = p.tokens :=
  have hwritten := written_of_parse h
  ⟨hwritten.wellFormed, hwritten.scanned⟩

/-- A source with both kinds of layout tokens, comments and an empty line. -/
theorem parse_tokens_branches : ∃ p,
    parse "def f(x,):\n\tif x # why\n\t\ty = g('#',)\r\n\telse:\n\n\t\t1.5" = .ok p ∧
    p.wellFormed = true ∧
    essential (scan
      "def f(x,):\n\tif x # why\n\t\ty = g('#',)\r\n\telse:\n\n\t\t1.5".toList) =
      [.keyword "def", .name "f", .mark '(', .name "x", .mark ')', .keyword "if", .name "x",
        .name "y", .mark '=', .name "g", .mark '(', .string "'#'", .mark ')', .keyword "else",
        .number "1.5"] := by
  have h : (parse "def f(x,):\n\tif x # why\n\t\ty = g('#',)\r\n\telse:\n\n\t\t1.5").toOption.map
      tokens = some
      [.keyword "def", .name "f", .mark '(', .name "x", .mark ')', .keyword "if", .name "x",
        .name "y", .mark '=', .name "g", .mark '(', .string "'#'", .mark ')', .keyword "else",
        .number "1.5"] := by
    decide +kernel
  obtain ⟨p, hp, hlist⟩ := Option.map_eq_some_iff.mp h
  have hparse := parse_eq_ok_of_toOption hp
  obtain ⟨hwell, htokens⟩ := parse_tokens hparse
  exact ⟨p, hparse, hwell, htokens.trans hlist⟩

end Program

end Offside
