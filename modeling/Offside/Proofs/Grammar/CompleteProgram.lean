import Offside.Proofs.Grammar.CompleteExpr

/-!
# The grammar takes every program

The text of a statement, a function or a program is taken by its rule, and the node is read as just
that part.  After a body the next line of code must be indented less (`Ends`); after a statement it
may stand at the same indentation, unless it is a further branch (`Follows`).

* the texts of statements and bodies are taken: `taken_cases`; those of functions:
  `FunDef.WrittenAt.takes`;
* **a source parses to a program if and only if it is a text of it**:
  `Program.parse_eq_ok_iff_written`.
-/

namespace Offside

open Text Pattern

/-! ### What may follow a statement -/

/-- The next line of code, if there is one, is indented by fewer than `n` blanks. -/
def Ends (n : Nat) (k : List Char) : Prop :=
  ∃ b r, k = b ++ r ∧ EmptyLines b ∧
    (LastLine r ∨ ∃ g w, r = g ++ w ∧ Spaces g ∧ Solid w ∧ g.length < n)

/-- A text that does not start with the keyword of a further branch. -/
def NoBranch (w : List Char) : Prop :=
  ∀ v ∈ [['e', 'l', 'i', 'f'], ['e', 'l', 's', 'e']], ∀ k, w = v ++ k → ¬ Stops .nameInner k

/-- The next line of code, if there is one, is indented less, or just as much and no further
branch. -/
def Follows (ind : List (List Char)) (k : List Char) : Prop :=
  ∃ b r, k = b ++ r ∧ EmptyLines b ∧ (LastLine r ∨ ∃ g w, r = g ++ w ∧ Spaces g ∧ Solid w ∧
    (g.length < ind.flatten.length ∨ g = ind.flatten ∧ NoBranch w))

theorem Ends.mono {n m : Nat} {k : List Char} (h : Ends n k) (hnm : n ≤ m) : Ends m k := by
  obtain ⟨b, r, rfl, hb, hr | ⟨g, w, rfl, hg, hw, hlt⟩⟩ := h
  · exact ⟨b, r, rfl, hb, Or.inl hr⟩
  · exact ⟨b, _, rfl, hb, Or.inr ⟨g, w, rfl, hg, hw, by omega⟩⟩

theorem Ends.follows {ind : List (List Char)} {n : Nat} {k : List Char} (h : Ends n k)
    (hn : n ≤ ind.flatten.length) : Follows ind k := by
  obtain ⟨b, r, rfl, hb, hr | ⟨g, w, rfl, hg, hw, hlt⟩⟩ := h
  · exact ⟨b, r, rfl, hb, Or.inl hr⟩
  · exact ⟨b, _, rfl, hb, Or.inr ⟨g, w, rfl, hg, hw, Or.inl (by omega)⟩⟩

theorem Follows.ends {ind : List (List Char)} {k : List Char} (h : Follows ind k) :
    Ends (ind.flatten.length + 1) k := by
  obtain ⟨b, r, rfl, hb, hr | ⟨g, w, rfl, hg, hw, hlt | ⟨rfl, -⟩⟩⟩ := h
  · exact ⟨b, r, rfl, hb, Or.inl hr⟩
  · exact ⟨b, _, rfl, hb, Or.inr ⟨g, w, rfl, hg, hw, by omega⟩⟩
  · exact ⟨b, _, rfl, hb, Or.inr ⟨_, w, rfl, hg, hw, by omega⟩⟩

/-- A line of code at the indentation of a body does not belong to a deeper one. -/
theorem Ends.of_line {ind : List (List Char)} {b w : List Char} (hb : EmptyLines b)
    (hind : ∀ l ∈ ind, Spaces l) (hw : Solid w) :
    Ends (ind.flatten.length + 1) (b ++ (ind.flatten ++ w)) :=
  ⟨b, _, rfl, hb, Or.inr ⟨_, w, rfl, .flatten hind, hw, by omega⟩⟩

theorem LastLine.head {r : List Char} (h : LastLine r) {x : Char} (hx : r.head? = some x) :
    x = ' ' ∨ x = '\t' ∨ x = '#' := by
  obtain ⟨a, c, rfl, ha, hc⟩ := h
  cases a with
  | nil =>
    rcases hc with rfl | ⟨u, rfl, -⟩
    · cases hx
    · cases hx
      exact Or.inr (Or.inr rfl)
  | cons y a =>
    have hy := space_contains_iff.mp (ha y (by simp))
    cases hx
    rcases hy with rfl | rfl
    · exact Or.inl rfl
    · exact Or.inr (Or.inl rfl)

theorem LastLine.of_append {f w : List Char} (hf : Spaces f) (h : LastLine (f ++ w)) :
    LastLine w := by
  induction f with
  | nil => exact h
  | cons x f ih =>
    refine ih (fun y hy => hf y (by simp [hy])) ?_
    obtain ⟨a, c, heq, ha, hc⟩ := h
    cases a with
    | cons y a =>
      simp only [List.cons_append, List.cons.injEq] at heq
      exact ⟨a, c, heq.2, fun z hz => ha z (by simp [hz]), hc⟩
    | nil =>
      -- A comment does not start with a blank.
      have hx := hf x (by simp)
      rcases hc with rfl | ⟨u, rfl, -⟩
      · cases heq
      · cases heq
        cases hx

theorem LastLine.not_startsExpr {r : List Char} (h : LastLine r) :
    ∀ x, r.head? = some x → startsExpr x = false := by
  intro x hx
  rcases h.head hx with rfl | rfl | rfl <;> decide

/-- Too few blanks are not an indentation. -/
theorem Solid.not_prefix {f g w : List Char} (hf : Spaces f) (hw : Solid w)
    (hlt : g.length < f.length) : ¬ f <+: g ++ w := by
  rintro ⟨v, hv⟩
  obtain ⟨x, u, rfl, hx⟩ := hw
  have hmem : x ∈ f := by
    have hget := congrArg (·[g.length]?) hv
    simp only [List.getElem?_append_left hlt, List.getElem?_append_right (Nat.le_refl _),
      Nat.sub_self, List.getElem?_cons_zero] at hget
    exact List.mem_of_getElem? hget
  rcases space_contains_iff.mp (hf x hmem) with rfl | rfl
  · simp at hx
  · simp at hx

theorem LineEnd.delimited {v k : List Char} (h : LineEnd v k) : Delimited (v ++ k) := by
  obtain ⟨a, b, n, rfl, ha, hb, hn⟩ := h
  simp only [List.append_assoc]
  refine .spaces ha ⟨[], _, rfl, .nil, fun x hx => ?_⟩
  rcases hb with rfl | ⟨u, rfl, -⟩
  · rcases hn with hn | ⟨rfl, rfl⟩
    · obtain ⟨y, u, rfl, hy⟩ := hn.1.cases
      cases hx
      rcases hy with rfl | rfl <;> decide
    · cases hx
  · cases hx
    decide

theorem Header.delimited {h k : List Char} (hh : Header h k) : Delimited (h ++ k) := by
  obtain ⟨a, c, e, b, rfl, ha, rfl | rfl, he, -⟩ := hh
  · simp only [List.append_assoc]
    exact .spaces ha he.delimited
  · simp only [List.append_assoc]
    exact .spaces ha (.of_cons (by decide))

/-- The blanks of a header line belong to its first part. -/
theorem Header.split {h k : List Char} (hh : Header h k) :
    ∃ a c e b, h = a ++ (c ++ (e ++ b)) ∧ Spaces a ∧ LineEnd e (b ++ k) ∧ EmptyLines b ∧
      Stops .space (c ++ (e ++ (b ++ k))) ∧
      (c = [':'] ∨ c = [] ∧ (e ++ (b ++ k)).head? ≠ some ':') := by
  obtain ⟨a, c, e, b, rfl, ha, rfl | rfl, he, hb⟩ := hh
  · obtain ⟨a', d, n, rfl, ha', hd, hn⟩ := he
    have hrest : LineEnd (d ++ n) (b ++ k) := ⟨[], d, n, rfl, .nil, hd, hn⟩
    have hhead : ∀ x, (d ++ n ++ (b ++ k)).head? = some x → x = '#' ∨ x = '\n' ∨ x = '\r' := by
      intro x hx
      rcases hd with rfl | ⟨u, rfl, -⟩
      · rcases hn with hn | ⟨rfl, hk⟩
        · obtain ⟨y, u, rfl, hy⟩ := hn.1.cases
          cases hx
          exact Or.inr hy
        · rw [hk] at hx
          cases hx
      · cases hx
        exact Or.inl rfl
    refine ⟨a ++ a', [], d ++ n, b, by simp, ha.append ha', hrest, hb, ?_, Or.inr ⟨rfl, ?_⟩⟩
    · intro x hx
      rcases hhead x hx with rfl | rfl | rfl <;> rfl
    · intro hx
      have := hhead _ hx
      simp at this
  · exact ⟨a, [':'], e, b, rfl, ha, he, hb, .of_ne rfl, Or.inl rfl⟩

/-- An expression does not start with a keyword. -/
theorem Expr.WrittenAt.not_keyword {pos : Nat} {t k : List Char} {e : Expr} (h : e.WrittenAt pos t)
    (hk : Stops .nameInner k) :
    ∀ w ∈ keywords, ∀ k', t ++ k = w ++ k' → ¬ Stops .nameInner k' := by
  have hname : ∀ {n r : List Char}, IsName n → Stops .nameInner r →
      ∀ w ∈ keywords, ∀ k', n ++ r = w ++ k' → ¬ Stops .nameInner k' := by
    intro n r hn hr w hw k' heq hk'
    obtain ⟨rfl, -⟩ := hr.unique hk' hn.inner (keywords_inner w hw) heq
    exact hn.2 hw
  have hother : ∀ {x : Char} {u : List Char}, nameHead.contains x = false →
      ∀ w ∈ keywords, ∀ k', x :: u = w ++ k' → ¬ Stops .nameInner k' := by
    intro x u hx w hw k' heq
    have hhead : ∀ w ∈ keywords, ∃ y v, w = y :: v ∧ nameHead.contains y = true := by
      simp only [keywords, List.forall_mem_cons, List.not_mem_nil, false_implies, implies_true,
        and_true]
      exact ⟨⟨_, _, rfl, by decide⟩, ⟨_, _, rfl, by decide⟩, ⟨_, _, rfl, by decide⟩,
        ⟨_, _, rfl, by decide⟩, ⟨_, _, rfl, by decide⟩⟩
    obtain ⟨y, v, rfl, hy⟩ := hhead w hw
    cases heq
    rw [hx] at hy
    cases hy
  cases h with
  | call hf ha _ =>
    rw [List.append_assoc, List.append_assoc, List.append_assoc]
    exact hname hf.1 (stops_gap ha (by decide))
  | assign hx ha _ _ =>
    rw [List.append_assoc, List.append_assoc, List.append_assoc]
    exact hname hx.1 (stops_gap ha (by decide))
  | name hx => exact hname hx.1 hk
  | @string _ lit _ =>
    obtain ⟨u, hu⟩ := lit.sourceForm_head
    rw [hu]
    exact hother (stops_of_quote (t := []) lit.quote _ rfl)
  | number hn =>
    obtain ⟨x, u, rfl, hx⟩ := hn.head
    exact hother (stops_of_numberHead (t := []) hx _ rfl)

/-- A statement is no further branch. -/
theorem Stmt.WrittenAt.noBranch {ind : List (List Char)} {pos : Nat} {t k : List Char} {s : Stmt}
    (h : s.WrittenAt ind pos t k) : NoBranch (t ++ k) := by
  intro w hw k' heq
  cases h with
  | line he hv =>
    rw [List.append_assoc] at heq
    refine he.not_keyword hv.delimited.stops_nameInner w ?_ k' heq
    exact List.mem_of_mem_tail (List.mem_of_mem_tail (List.mem_of_mem_tail hw))
  | block _ =>
    simp only [List.mem_cons, List.not_mem_nil, or_false] at hw
    rcases hw with rfl | rfl <;> simp at heq
  | cond hbr _ _ =>
    cases hbr
    simp only [List.mem_cons, List.not_mem_nil, or_false] at hw
    rcases hw with rfl | rfl <;> simp at heq

namespace Pattern

variable {ind : List (List Char)} {pos : Nat} {t k : List Char} {ns : List Node}

/-- A line at the remembered indentation is not there if nothing that stands there is right. -/
theorem refuses_line {b r : List Char} {p : Pattern} (hb : EmptyLines b) (hr : NoEmptyLine r)
    (hp : ∀ w pos, r = ind.flatten ++ w → p.Refuses ind pos w) :
    (seq (star blank) (seq peekAll p)).Refuses ind pos (b ++ r) := by
  have hblanks : (star blank).Takes ind pos b r [] := takes_blanks_iff.mpr ⟨rfl, hb, hr⟩
  refine (refuses_seq_iff (by rfl)).mpr (Or.inr ⟨b, r, [], rfl, hblanks, ?_⟩)
  by_cases hpre : ind.flatten <+: r
  · obtain ⟨w, rfl⟩ := hpre
    refine (refuses_seq_iff (by rfl)).mpr (Or.inr ⟨_, w, [], rfl, ?_, ?_⟩)
    · exact takes_peekAll_iff.mpr ⟨rfl, rfl⟩
    · exact hp w _ rfl
  · exact (refuses_seq_iff (by rfl)).mpr (Or.inl (refuses_peekAll_iff.mpr hpre))

/-- A pattern that needs a character of code refuses the last line of a source. -/
theorem refuses_stmt (h : ∀ x, t.head? = some x → startsExpr x = false) :
    (rule .stmt).Refuses ind pos t := by
  rw [refuses_iff rfl]
  rintro u k ns rfl hu
  obtain ⟨m, s, -, -, hs⟩ := takes_stmt_sound hu
  obtain ⟨x, v, rfl, hx⟩ := hs.head
  rw [h x rfl] at hx
  cases hx

/-- Where a body ends, there is no further line of it. -/
theorem refuses_furtherLine (hind : ∀ l ∈ ind, Spaces l) (hk : Ends ind.flatten.length k) :
    (all [star blank, peekAll, rule .stmt]).Refuses ind pos k := by
  obtain ⟨b, r, rfl, hb, hr | ⟨g, w, rfl, hg, hw, hlt⟩⟩ := hk
  · refine refuses_line hb (.of_lastLine hr) fun w pos hw => ?_
    subst hw
    exact refuses_stmt (hr.of_append (.flatten hind)).not_startsExpr
  · refine refuses_line hb (.of_solid hg hw) fun w' pos heq => ?_
    exact absurd ⟨w', heq.symm⟩ (hw.not_prefix (.flatten hind) hlt)

theorem refuses_word_of_head {w : List Char} (h : ∀ x, t.head? = some x → startsExpr x = false)
    (hw : ∃ y v, w = y :: v ∧ startsExpr y = true) : (word w).Refuses ind pos t := by
  obtain ⟨y, v, rfl, hy⟩ := hw
  rw [refuses_word_iff]
  rintro k rfl -
  rw [h y rfl] at hy
  cases hy

/-- Where no branch follows, the line of a branch is refused. -/
theorem refuses_branchLine {w : List Char} {p : Pattern}
    (hw : w ∈ [['e', 'l', 'i', 'f'], ['e', 'l', 's', 'e']]) (hind : ∀ l ∈ ind, Spaces l)
    (hk : Follows ind k) :
    (seq (star blank) (seq peekAll (seq (word w) p))).Refuses ind pos k := by
  have hhead : ∃ y v, w = y :: v ∧ startsExpr y = true := by
    simp only [List.mem_cons, List.not_mem_nil, or_false] at hw
    rcases hw with rfl | rfl
    · exact ⟨'e', _, rfl, by decide⟩
    · exact ⟨'e', _, rfl, by decide⟩
  obtain ⟨b, r, rfl, hb, hr | ⟨g, u, rfl, hg, hu, hlt | ⟨rfl, hno⟩⟩⟩ := hk
  · refine refuses_line hb (.of_lastLine hr) fun v pos hv => ?_
    refine (refuses_seq_iff (by rfl)).mpr (Or.inl ?_)
    subst hv
    exact refuses_word_of_head (hr.of_append (.flatten hind)).not_startsExpr hhead
  · refine refuses_line hb (.of_solid hg hu) fun v pos heq => ?_
    exact absurd ⟨v, heq.symm⟩ (hu.not_prefix (.flatten hind) hlt)
  · refine refuses_line hb (.of_solid hg hu) fun v pos heq => ?_
    refine (refuses_seq_iff (by rfl)).mpr (Or.inl ?_)
    obtain rfl := List.append_cancel_left heq
    exact refuses_word_iff.mpr (hno w hw)

/-! ### Blocks and branches -/

/-- The rest of a header line is taken with the lines without code below it. -/
theorem takes_header (hh : Header t k) (hk : NoEmptyLine k) :
    (all [sp, opt (char ':'), eol, star blank]).Takes ind pos t k [] := by
  obtain ⟨a, c, e, b, rfl, ha, he, hb, hstop, hc⟩ := hh.split
  have hcolon : (opt (char ':')).Takes ind (pos + byteSize a) c (e ++ (b ++ k)) [] := by
    rcases hc with rfl | ⟨rfl, hne⟩
    · exact takes_opt_iff.mpr (Or.inl takes_char)
    · exact takes_opt_iff.mpr (Or.inr ⟨refuses_char_iff.mpr hne, rfl, rfl⟩)
  have hheader : (all [sp, opt (char ':'), eol, star blank]).Takes ind pos (a ++ (c ++ (e ++ b))) k
      ([] ++ ([] ++ ([] ++ []))) := by
    refine Takes.seq (takes_sp ha ?_) (Takes.seq ?_ (Takes.seq (takes_eol_iff.mpr ⟨rfl, he⟩)
      (takes_blanks_iff.mpr ⟨rfl, hb, hk⟩)))
    · simpa only [List.append_assoc] using hstop
    · simpa only [List.append_assoc] using hcolon
  exact hheader

theorem takes_block {u : List Char} {m : Node} (hh : Header t (u ++ k)) (hu : NoEmptyLine (u ++ k))
    (hm : (rule .body).Takes ind (pos + byteSize t) u k [m]) :
    block.Takes ind pos (t ++ u) k [m] := by
  change (all ([sp, opt (char ':'), eol, star blank] ++ [rule .body])).Takes ind pos (t ++ u) k [m]
  rw [takes_all_append_iff (by simp) (by simp)]
  exact Takes.seq (takes_header hh hu) hm

end Pattern

theorem Body.WrittenAt.noEmptyLine {ind : List (List Char)} {pos : Nat} {t k : List Char} {b : Body}
    (h : b.WrittenAt ind pos t k) (hind : ∀ l ∈ ind, Spaces l) : NoEmptyLine (t ++ k) := by
  cases h with
  | mk _ hown hs _ =>
    have hsplit : ∀ a b c d e : List Char,
        a ++ (b ++ (c ++ d)) ++ e = (a ++ b) ++ (c ++ (d ++ e)) := by
      simp
    rw [hsplit]
    exact .of_solid (Spaces.append (.flatten hind) hown) hs.solid.append

/-- A statement whose text is taken wherever it is written. -/
def Stmt.Taken (s : Stmt) : Prop :=
  ∀ {ind pos t k}, (∀ l ∈ ind, Spaces l) → s.WrittenAt ind pos t k → Follows ind k →
    ∃ m, (rule .stmt).Takes ind pos t k [m] ∧ Stmt.ofNode? m = some s

/-- A body whose text is taken wherever it is written. -/
def Body.Taken (b : Body) : Prop :=
  ∀ {ind pos t k}, (∀ l ∈ ind, Spaces l) → b.WrittenAt ind pos t k →
    Ends (ind.flatten.length + 1) k →
    ∃ m, (rule .body).Takes ind pos t k [m] ∧ Body.ofNode? m = some b

section
variable {ind : List (List Char)} {pos : Nat} {t k : List Char} (hind : ∀ l ∈ ind, Spaces l)
include hind

theorem Block.WrittenAt.takes {b : Body} (h : Block.WrittenAt ind pos t k b) (hb : b.Taken)
    (hk : Ends (ind.flatten.length + 1) k) :
    ∃ m, block.Takes ind pos t k [m] ∧ Body.ofNode? m = some b := by
  cases h with
  | mk hh hw =>
    obtain ⟨m, hm, hread⟩ := hb hind hw hk
    exact ⟨m, takes_block hh (hw.noEmptyLine hind) hm, hread⟩

omit hind in
theorem Block.WrittenAt.delimited {b : Body} (h : Block.WrittenAt ind pos t k b) :
    Delimited (t ++ k) := by
  cases h with
  | mk hh _ =>
    rw [List.append_assoc]
    exact hh.delimited

theorem Branch.WrittenAt.takes {w : List Char} {br : Branch} (h : Branch.WrittenAt w ind pos t k br)
    (hb : br.body.Taken) (hk : Ends (ind.flatten.length + 1) k) :
    ∃ m m', (all [word w, sp, rule .lineStmt, block]).Takes ind pos t k [m, m'] ∧
      Expr.ofNode? m = some br.test ∧ Body.ofNode? m' = some br.body := by
  cases h with
  | @mk _ _ _ e b g t u _ hg hstop he hblock =>
    obtain ⟨m, hm, hread⟩ := he.takes ind hblock.delimited
    obtain ⟨m', hm', hread'⟩ := hblock.takes hind hb hk
    refine ⟨m, m', ?_, hread, hread'⟩
    refine Takes.seq (m := []) (takes_word_iff.mpr ⟨rfl, ?_, rfl⟩) (Takes.seq (m := [])
      (takes_sp hg ?_) (Takes.seq (m := [m]) hm hm'))
    · -- The expression has a first character, so that what follows it does not matter.
      obtain ⟨x, v, rfl, -⟩ := he.head
      intro y hy
      refine hstop y ?_
      rw [← hy]
      cases g <;> rfl
    · rw [List.append_assoc]
      exact he.solid.append.stops_space

theorem Elifs.WrittenAt.ends {brs : List Branch} (h : Elifs.WrittenAt ind pos t k brs)
    (hk : Ends (ind.flatten.length + 1) k) : Ends (ind.flatten.length + 1) (t ++ k) := by
  cases h with
  | nil => exact hk
  | cons hb hbr _ =>
    rw [List.append_assoc, List.append_assoc]
    refine .of_line hb hind ?_
    cases hbr
    exact ⟨'e', _, rfl, by decide⟩

theorem Else.WrittenAt.ends {o : Option Body} (h : Else.WrittenAt ind pos t k o)
    (hk : Ends (ind.flatten.length + 1) k) : Ends (ind.flatten.length + 1) (t ++ k) := by
  cases h with
  | absent => exact hk
  | present hb _ =>
    rw [List.append_assoc, List.append_assoc]
    exact .of_line hb hind ⟨'e', _, rfl, by decide⟩

/-- An `else` branch is no `elif` branch. -/
theorem Else.WrittenAt.refuses_elif {o : Option Body} {p : Nat} (h : Else.WrittenAt ind pos t k o)
    (hk : Follows ind k) : (rule .elifStmt).Refuses ind p (t ++ k) := by
  rw [refuses_rule_iff]
  cases h with
  | absent => exact refuses_branchLine (by decide) hind hk
  | present hb _ =>
    rw [List.append_assoc, List.append_assoc]
    refine refuses_line hb (.of_solid (.flatten hind) ⟨'e', _, rfl, by decide⟩) fun w p heq => ?_
    obtain rfl := List.append_cancel_left heq
    refine (refuses_seq_iff (by rfl)).mpr (Or.inl (refuses_word_iff.mpr ?_))
    intro k' heq
    simp at heq

theorem Elifs.WrittenAt.repeats {brs : List Branch} (h : Elifs.WrittenAt ind pos t k brs)
    (hbrs : ∀ br ∈ brs, br.body.Taken) (hk : Ends (ind.flatten.length + 1) k)
    (hno : ∀ p, (rule .elifStmt).Refuses ind p k) :
    ∃ ns, Repeats (rule .elifStmt) ind k pos t ns ∧ Branch.ofNodes? ns = some brs := by
  induction brs generalizing pos t with
  | nil =>
    cases h
    exact ⟨[], .done (hno pos), by rw [Branch.ofNodes?]⟩
  | cons br brs ih =>
    cases h with
    | @cons _ _ _ _ b t u _ hb hbr hrest =>
      obtain ⟨ns, hns, hread⟩ := ih hrest fun br hbr => hbrs br (by simp [hbr])
      obtain ⟨m, m', hm, htest, hbody⟩ := hbr.takes hind (hbrs br (by simp)) (hrest.ends hind hk)
      have hsolid : Solid t := by
        cases hbr
        exact ⟨'e', _, rfl, by decide⟩
      have helif : Rule.elifStmt.pattern.Takes ind pos (b ++ (ind.flatten ++ t)) (u ++ k)
          ([] ++ ([] ++ [m, m'])) := by
        refine Takes.seq (takes_blanks_iff.mpr ⟨rfl, hb, ?_⟩)
          (Takes.seq (takes_peekAll_iff.mpr ⟨rfl, rfl⟩) hm)
        rw [List.append_assoc]
        exact .of_solid (.flatten hind) hsolid.append
      have hmore := Repeats.more helif.rule
        (by simpa only [byteSize_append, ← Nat.add_assoc] using hns)
      simp only [List.append_assoc] at hmore
      refine ⟨_, hmore, ?_⟩
      cases br
      simp [Rule.node, Rule.isAtomic, Branch.ofNodes?, htest, hbody, hread, Branch.test, Branch.body]

theorem Else.WrittenAt.takes {o : Option Body} (h : Else.WrittenAt ind pos t k o)
    (ho : ∀ b ∈ o, b.Taken) (hk : Follows ind k) :
    ∃ ns, Rule.elseStmt.pattern.Takes ind pos t k ns ∧ Body.ofOptional? ns = some o := by
  cases h with
  | absent =>
    refine ⟨[], takes_opt_iff.mpr (Or.inr ⟨refuses_branchLine (by decide) hind hk, rfl, rfl⟩), ?_⟩
    rw [Body.ofOptional?]
  | @present _ _ body b u _ hb hblock =>
    obtain ⟨m, hm, hread⟩ := hblock.takes hind (ho body rfl) hk.ends
    refine ⟨[] ++ ([] ++ ([] ++ [m])), takes_opt_iff.mpr (Or.inl ?_), ?_⟩
    · refine Takes.seq (takes_blanks_iff.mpr ⟨rfl, hb, ?_⟩)
        (Takes.seq (takes_peekAll_iff.mpr ⟨rfl, rfl⟩)
        (Takes.seq (takes_word_iff.mpr ⟨rfl, hblock.delimited.stops_nameInner, rfl⟩) hm))
      rw [List.append_assoc]
      exact .of_solid (.flatten hind) ⟨'e', _, rfl, by decide⟩
    · simp [Body.ofOptional?, hread]

/-! ### Statements -/

omit hind in
theorem takes_stmt_of_inner {m : Node} {s : Stmt} (h : Rule.stmt.pattern.Takes ind pos t k [m])
    (hm : Stmt.ofInner? m = some s) :
    ∃ m, (rule .stmt).Takes ind pos t k [m] ∧ Stmt.ofNode? m = some s :=
  ⟨_, h.rule, by simpa [Rule.node, Rule.isAtomic, Stmt.ofNode?] using hm⟩

omit hind in
theorem takes_line {e : Expr} {v : List Char} (he : e.WrittenAt pos t) (hv : LineEnd v k) :
    ∃ m, (rule .stmt).Takes ind pos (t ++ v) k [m] ∧
      Stmt.ofNode? m = some (.line e (.over pos t)) := by
  have hno := he.not_keyword hv.delimited.stops_nameInner
  have hword : ∀ {w p}, w ∈ keywords → (seq (word w) p).Refuses ind pos (t ++ v ++ k) := by
    intro w p hw
    rw [List.append_assoc]
    exact (refuses_seq_iff (by rfl)).mpr (Or.inl (refuses_word_iff.mpr (hno w hw)))
  obtain ⟨m, hm, hread⟩ := he.takes ind hv.delimited
  obtain ⟨inner, -, heq⟩ := takes_rule_iff.mp hm
  cases heq
  have hline : Rule.stmt.pattern.Takes ind pos (t ++ v) k
      ([Rule.lineStmt.node pos t inner] ++ []) := by
    refine takes_alt_iff.mpr (Or.inr ⟨?_, takes_alt_iff.mpr (Or.inr ⟨?_, ?_⟩)⟩)
    · exact refuses_rule_iff.mpr (hword (by decide))
    · exact refuses_rule_iff.mpr (hword (by decide))
    · exact Takes.seq hm (takes_eol_iff.mpr ⟨rfl, hv⟩)
  refine takes_stmt_of_inner hline ?_
  change Expr.ofNode? (.branch .lineStmt ⟨pos, pos + byteSize t⟩ inner) = some e at hread
  change Stmt.ofInner? (.branch .lineStmt ⟨pos, pos + byteSize t⟩ inner) = _
  simp [Stmt.ofInner?, hread, Span.over]

theorem takes_do {b : Body} (h : Block.WrittenAt ind (pos + byteSize ['d', 'o']) t k b)
    (hb : b.Taken) (hk : Follows ind k) :
    ∃ m, (rule .stmt).Takes ind pos (['d', 'o'] ++ t) k [m] ∧
      Stmt.ofNode? m = some (.block b (.over pos (['d', 'o'] ++ t))) := by
  obtain ⟨m, hm, hread⟩ := h.takes hind hb hk.ends
  have hdo : Rule.doStmt.pattern.Takes ind pos (['d', 'o'] ++ t) k ([] ++ [m]) :=
    Takes.seq (takes_word_iff.mpr ⟨rfl, h.delimited.stops_nameInner, rfl⟩) hm
  refine takes_stmt_of_inner (takes_alt_iff.mpr (Or.inl hdo.rule)) ?_
  simp [Rule.node, Rule.isAtomic, Stmt.ofInner?, hread, Span.over]

theorem takes_if {br : Branch} {brs : List Branch} {o : Option Body} {u v : List Char}
    (hbr : Branch.WrittenAt ['i', 'f'] ind pos t (u ++ (v ++ k)) br)
    (hu : Elifs.WrittenAt ind (pos + byteSize t) u (v ++ k) brs)
    (hv : Else.WrittenAt ind (pos + byteSize t + byteSize u) v k o)
    (hbrs : ∀ br' ∈ br :: brs, br'.body.Taken) (ho : ∀ b ∈ o, b.Taken) (hk : Follows ind k) :
    ∃ m, (rule .stmt).Takes ind pos (t ++ (u ++ v)) k [m] ∧
      Stmt.ofNode? m = some (.cond (br :: brs) o (.over pos (t ++ (u ++ v)))) := by
  have hends := hv.ends hind hk.ends
  obtain ⟨m, m', hm, htest, hbody⟩ := hbr.takes hind (hbrs br (by simp)) (hu.ends hind hends)
  obtain ⟨ns, hns, hreads⟩ := hu.repeats hind (fun br' h => hbrs br' (by simp [h])) hends
    fun p => hv.refuses_elif hind hk
  obtain ⟨ms, hms, hread⟩ := hv.takes hind ho hk
  have helifs : Rule.elifs.pattern.Takes ind (pos + byteSize t) u (v ++ k) ns :=
    (takes_star_iff (by rfl) (by rfl)).mpr hns
  have hif : Rule.ifStmt.pattern.Takes ind pos (t ++ (u ++ v)) k
      ([m, m'] ++ ([Rule.elifs.node (pos + byteSize t) u ns] ++
        [Rule.elseStmt.node (pos + byteSize t + byteSize u) v ms])) := by
    change (all ([kwIf, sp, rule .lineStmt, block] ++ [rule .elifs, rule .elseStmt])).Takes _ _ _ _ _
    rw [takes_all_append_iff (by simp) (by simp)]
    refine Takes.seq ?_ (Takes.seq helifs.rule hms.rule)
    rw [List.append_assoc]
    exact hm
  have hdo : (rule .doStmt).Refuses ind pos (t ++ (u ++ v) ++ k) := by
    rw [refuses_rule_iff]
    refine (refuses_seq_iff (by rfl)).mpr (Or.inl (refuses_word_iff.mpr ?_))
    intro k' heq
    cases hbr
    simp at heq
  refine takes_stmt_of_inner
    (takes_alt_iff.mpr (Or.inr ⟨hdo, takes_alt_iff.mpr (Or.inl hif.rule)⟩)) ?_
  cases br
  simp [Rule.node, Rule.isAtomic, Stmt.ofInner?, htest, hbody, hreads, hread, Span.over,
    Branch.test, Branch.body]

/-! ### Bodies -/

theorem Lines.WrittenAt.follows {ss : List Stmt} (h : Lines.WrittenAt ind pos t k ss)
    (hk : Ends ind.flatten.length k) : Follows ind (t ++ k) := by
  cases h with
  | nil => exact hk.follows (Nat.le_refl _)
  | @cons _ _ _ _ b u v _ hb hs _ =>
    refine ⟨b, ind.flatten ++ (u ++ (v ++ k)), by simp, hb, Or.inr ⟨_, _, rfl, .flatten hind, ?_, ?_⟩⟩
    · exact hs.solid.append
    · exact Or.inr ⟨rfl, hs.noBranch⟩

theorem Lines.WrittenAt.repeats {ss : List Stmt} (h : Lines.WrittenAt ind pos t k ss)
    (hss : ∀ s ∈ ss, s.Taken) (hk : Ends ind.flatten.length k) :
    ∃ ns, Repeats (all [star blank, peekAll, rule .stmt]) ind k pos t ns ∧
      Stmt.ofNodes? ns = some ss := by
  induction ss generalizing pos t with
  | nil =>
    cases h
    exact ⟨[], .done (refuses_furtherLine hind hk), by rw [Stmt.ofNodes?]⟩
  | cons s ss ih =>
    cases h with
    | @cons _ _ _ _ b u v _ hb hs hrest =>
      obtain ⟨ns, hns, hread⟩ := ih hrest fun s hs => hss s (by simp [hs])
      obtain ⟨m, hm, hread'⟩ := hss s (by simp) hind hs (hrest.follows hind hk)
      have hline : (all [star blank, peekAll, rule .stmt]).Takes ind pos
          (b ++ (ind.flatten ++ u)) (v ++ k) ([] ++ ([] ++ [m])) := by
        refine Takes.seq (takes_blanks_iff.mpr ⟨rfl, hb, ?_⟩)
          (Takes.seq (takes_peekAll_iff.mpr ⟨rfl, rfl⟩) hm)
        rw [List.append_assoc]
        exact .of_solid (.flatten hind) hs.solid.append
      have hmore := Repeats.more hline
        (by simpa only [byteSize_append, ← Nat.add_assoc] using hns)
      simp only [List.append_assoc] at hmore
      exact ⟨_, hmore, by simp [Stmt.ofNodes?, hread', hread]⟩

end

theorem takes_body {ss : List Stmt} {span : Span} (hss : ∀ s ∈ ss, s.Taken) :
    Body.Taken (.mk ss span) := by
  intro ind pos t k hind h hk
  cases h with
  | @mk _ _ s ss own u v _ hne hown hs hrest =>
    have hind' : ∀ l ∈ own :: ind, Spaces l := by
      intro l hl
      rcases List.mem_cons.mp hl with rfl | hl
      · exact hown
      · exact hind l hl
    have hlen : ind.flatten.length + 1 ≤ (own :: ind).flatten.length := by
      have := List.length_pos_iff.mpr hne
      simp only [List.flatten_cons, List.length_append]
      omega
    have hk' := hk.mono hlen
    obtain ⟨m, hm, hread⟩ := hss s (by simp) hind' hs (hrest.follows hind' hk')
    obtain ⟨ns, hns, hreads⟩ := hrest.repeats hind' (fun s hs => hss s (by simp [hs])) hk'
    have hbody : Rule.body.pattern.Takes ind pos (ind.flatten ++ (own ++ (u ++ v))) k
        ([m] ++ ns) := by
      refine takes_body_iff.mpr ⟨own, u, v, [m], ns, rfl, rfl, hne, hown, ?_, hm, ?_⟩
      · rw [List.append_assoc]
        exact hs.solid.append.stops_space
      · exact (takes_star_iff (by rfl) (by rfl)).mpr hns
    refine ⟨_, hbody.rule, ?_⟩
    simp [Rule.node, Rule.isAtomic, Body.ofNode?, Stmt.ofNodes?, hread, hreads, Span.over]

/-- The text of a statement or a body is taken wherever it is written. -/
theorem taken_cases : Stmt.Cases Stmt.Taken Body.Taken where
  line e span := by
    intro ind pos t k _ h _
    cases h with
    | line he hv => exact takes_line he hv
  block b span hb := by
    intro ind pos t k hind h hk
    cases h with
    | block hblock => exact takes_do hind hblock hb hk
  cond brs o span hbrs ho := by
    intro ind pos t k hind h hk
    cases h with
    | cond hbr hu hv => exact takes_if hind hbr hu hv hbrs ho hk
  body ss span hss := takes_body hss

/-! ### Functions and programs -/

/-- The first line of a function up to its closing parenthesis. -/
def signature : Pattern :=
  all [kwDef, sp, rule .name, sp, char '(', sp, rule .params, sp, char ')']

/-- The signature of a function is taken, whatever comes after it. -/
theorem takes_signature {pos : Nat} {x : Ident} {ps : List Ident} {g t a l : List Char} (hg : g ≠ [])
    (hgs : Spaces g) (hx : x.WrittenAt (pos + byteSize ['d', 'e', 'f'] + byteSize g) t)
    (ha : Spaces a) (hl : Listed Ident.WrittenAt true (pos + byteSize ['d', 'e', 'f'] + byteSize g +
      byteSize t + byteSize a + byteSize ['(']) l ps) (k : List Char) :
    ∃ m p v ns, signature.Takes [] pos
        (['d', 'e', 'f'] ++ (g ++ (t ++ (a ++ (['('] ++ (l ++ [')'])))))) k
        [m, Rule.params.node p v ns] ∧ Ident.ofNode? m = some x ∧ ns.mapM Ident.ofNode? = some ps := by
  have hclose : ∀ {pos}, (rule .name).Refuses [] pos ([')'] ++ k) :=
    refuses_name_of_stops (.of_ne (by decide))
  obtain ⟨b, v, c, ns, rfl, hb, hc, hns, hstop, hlist⟩ :=
    takes_commaList rfl Ident.WrittenAt.solid hclose hl
      fun x _ {pos t k} hx hk => takes_ident hx hk.stops_nameInner
  obtain ⟨m, hm, hread⟩ : ∃ m, (rule .name).Takes [] (pos + byteSize ['d', 'e', 'f'] + byteSize g)
      t (a ++ (['('] ++ (b ++ (v ++ (c ++ ([')'] ++ k)))))) [m] ∧ Ident.ofNode? m = some x :=
    takes_ident hx (stops_gap ha (by decide))
  have hsignature : signature.Takes [] pos
      (['d', 'e', 'f'] ++ (g ++ (t ++ (a ++ (['('] ++ (b ++ (v ++ (c ++ [')'])))))))) k
      ([] ++ ([] ++ ([m] ++ ([] ++ ([] ++ ([] ++ ([Rule.params.node (pos +
        byteSize ['d', 'e', 'f'] + byteSize g + byteSize t + byteSize a + byteSize ['('] +
        byteSize b) v ns] ++ ([] ++ [])))))))) := by
    refine Takes.seq (takes_word_iff.mpr ⟨rfl, ?_, rfl⟩) (Takes.seq (takes_sp hgs ?_)
      (Takes.seq ?_ (Takes.seq (takes_sp ha (.of_ne rfl)) (Takes.seq takes_char
      (Takes.seq (takes_sp hb ?_) (Takes.seq (Takes.rule (r := .params) ?_)
      (Takes.seq (takes_sp hc (.of_ne rfl)) takes_char)))))))
    · obtain ⟨y, g, rfl⟩ := List.exists_cons_of_ne_nil hg
      rcases space_contains_iff.mp (hgs y (by simp)) with rfl | rfl
      · exact .of_ne (by decide)
      · exact .of_ne (by decide)
    · rw [List.append_assoc]
      exact hx.solid.append.stops_space
    · simpa only [List.append_assoc] using hm
    · simpa only [List.append_assoc] using hstop
    · simp only [List.append_assoc]
      exact hlist
  simp only [List.append_assoc]
  exact ⟨m, _, v, ns, hsignature, hread, hns⟩

/-- **The text of a function is taken** before a line without indentation. -/
theorem FunDef.WrittenAt.takes {pos : Nat} {t k : List Char} {f : FunDef} (h : f.WrittenAt pos t k)
    (hk : Ends 1 k) :
    ∃ m, (rule .definition).Takes [] pos t k [m] ∧ FunDef.ofNode? m = some f := by
  cases h with
  | @mk x ps body g t a l u _ hg hgs hx ha hl hblock =>
    obtain ⟨m', hm', hread'⟩ := hblock.takes (by simp) (taken_cases.body' body) hk
    obtain ⟨m, p, v, ns, hm, hread, hns⟩ := takes_signature hg hgs hx ha hl (u ++ k)
    have hdef : Rule.definition.pattern.Takes [] pos
        (['d', 'e', 'f'] ++ (g ++ (t ++ (a ++ (['('] ++ (l ++ [')']))))) ++ u) k
        ([m, Rule.params.node p v ns] ++ [m']) := by
      change (all ([kwDef, sp, rule .name, sp, char '(', sp, rule .params, sp, char ')'] ++
        [block])).Takes _ _ _ _ _
      rw [takes_all_append_iff (by simp) (by simp)]
      refine Takes.seq hm ?_
      simp only [byteSize_append, ← Nat.add_assoc] at hm' ⊢
      exact hm'
    simp only [List.append_assoc] at hdef
    refine ⟨_, hdef.rule, ?_⟩
    simp [Rule.node, Rule.isAtomic, FunDef.ofNode?, hread, hns, hread', Span.over]

theorem Defs.WrittenAt.ends {pos : Nat} {t k : List Char} {fs : List FunDef}
    (h : Defs.WrittenAt pos t k fs) (hk : Ends 1 k) : Ends 1 (t ++ k) := by
  cases h with
  | nil => exact hk
  | @cons _ _ _ b t u _ hb hf _ =>
    exact ⟨b, t ++ (u ++ k), by simp, hb, Or.inr ⟨[], _, rfl, .nil, hf.solid.append, by simp⟩⟩

/-- A function after lines without code. -/
theorem FunDef.WrittenAt.takes_next {pos : Nat} {b t k : List Char} {f : FunDef}
    (hb : EmptyLines b) (h : f.WrittenAt (pos + byteSize b) t k) (hk : Ends 1 k) :
    ∃ ns, nextDefinition.Takes [] pos (b ++ t) k ns ∧ readFuns ns = some [f] := by
  obtain ⟨m, hm, hread⟩ := h.takes hk
  refine ⟨[] ++ [m], Takes.seq (takes_blanks_iff.mpr ⟨rfl, hb, ?_⟩) hm, ?_⟩
  · exact .of_solid (g := []) .nil h.solid.append
  · obtain ⟨inner, -, heq⟩ := takes_rule_iff.mp hm
    cases heq
    exact mapM_singleton_eq_some hread

theorem Defs.WrittenAt.repeats {pos : Nat} {t k : List Char} {fs : List FunDef}
    (h : Defs.WrittenAt pos t k fs) (hk : Ends 1 k)
    (hno : ∀ p, nextDefinition.Refuses [] p k) :
    ∃ ns, Repeats nextDefinition [] k pos t ns ∧ readFuns ns = some fs := by
  induction fs generalizing pos t with
  | nil =>
    cases h
    exact ⟨[], .done (hno pos), rfl⟩
  | cons f fs ih =>
    cases h with
    | cons hb hf hrest =>
      obtain ⟨ms, hms, hread⟩ := hf.takes_next hb (hrest.ends hk)
      obtain ⟨ns, hns, hread'⟩ := ih hrest
      have hmore := Repeats.more hms
        (by simpa only [byteSize_append, ← Nat.add_assoc] using hns)
      rw [List.append_assoc] at hmore
      exact ⟨_, hmore, readFuns_append hread hread'⟩

/-- After the last function of a source there is no further one. -/
theorem refuses_nextDefinition {p : Nat} {b z : List Char} (hb : EmptyLines b) (hz : LastLine z) :
    nextDefinition.Refuses [] p (b ++ z) := by
  refine (refuses_seq_iff (by rfl)).mpr (Or.inr ⟨b, z, [], rfl,
    takes_blanks_iff.mpr ⟨rfl, hb, .of_lastLine hz⟩, ?_⟩)
  rw [refuses_rule_iff]
  refine (refuses_seq_iff (by rfl)).mpr (Or.inl (refuses_word_of_head hz.not_startsExpr ?_))
  exact ⟨'d', _, rfl, by decide⟩

/-- What comes after the last function of a source. -/
def sourceTail : Pattern := all [star blank, sp, opt comment, rule .endOfInput]

theorem takes_sourceTail {p : Nat} {b z : List Char} (hb : EmptyLines b) (hz : LastLine z) :
    sourceTail.Takes [] p (b ++ z) [] [.leaf .endOfInput (p + byteSize b + byteSize z) []] := by
  have hlast := NoEmptyLine.of_lastLine hz
  obtain ⟨a, c, rfl, ha, hc⟩ := hz
  have hstop : Stops .space c := by
    rcases hc with rfl | ⟨u, rfl, -⟩
    · intro x hx
      cases hx
    · exact .of_ne rfl
  have hcomment : (opt comment).Takes [] (p + byteSize b + byteSize a) c [] [] :=
    takes_optComment_iff.mpr ⟨rfl, hc, fun _ => by simp, fun _ x hx => by cases hx⟩
  have hend : (rule .endOfInput).Takes [] (p + byteSize b + byteSize a + byteSize c) [] []
      [.leaf .endOfInput (p + byteSize b + byteSize a + byteSize c) []] :=
    takes_endOfInput_iff.mpr ⟨rfl, rfl, rfl⟩
  have htail : sourceTail.Takes [] p (b ++ (a ++ (c ++ []))) [] ([] ++ ([] ++ ([] ++
      [.leaf .endOfInput (p + byteSize b + byteSize a + byteSize c) []]))) := by
    refine Takes.seq (takes_blanks_iff.mpr ⟨rfl, hb, by simpa using hlast⟩)
      (Takes.seq (takes_sp ha (by simpa using hstop)) (Takes.seq hcomment hend))
  simpa only [List.append_nil, List.nil_append, byteSize_append, ← Nat.add_assoc] using htail

/-- **The text of a program is taken.** -/
theorem Program.Written.takes {cs : List Char} {p : Program} (h : p.Written cs) :
    ∃ ns, (rule .program).Takes [] 0 cs [] ns ∧ Program.ofNodes? ns = some p := by
  obtain ⟨funs, span⟩ := p
  obtain ⟨t, b, z, rfl, hdefs, hne, hb, hz, rfl⟩ := h
  have hends : Ends 1 (b ++ z) := ⟨b, z, rfl, hb, Or.inl hz⟩
  cases hdefs with
  | nil => exact absurd rfl hne
  | @cons _ f fs b' t u _ hb' hf hrest =>
    obtain ⟨ms, hms, hread⟩ := hf.takes_next hb' (hrest.ends hends)
    obtain ⟨ns, hns, hread'⟩ := hrest.repeats hends fun _ => refuses_nextDefinition hb hz
    have htail := takes_sourceTail (p := 0 + byteSize (b' ++ (t ++ u))) hb hz
    have hplus : (plus nextDefinition).Takes [] 0 (b' ++ t ++ u) (b ++ z) (ms ++ ns) := by
      refine Takes.seq hms ((takes_star_iff (by rfl) (by rfl)).mpr ?_)
      simpa only [byteSize_append, ← Nat.add_assoc] using hns
    rw [List.append_assoc, ← List.append_nil (b ++ z)] at hplus
    have hprogram : Rule.program.pattern.Takes [] 0 (b' ++ (t ++ u) ++ (b ++ z)) [] _ :=
      Takes.seq hplus htail
    have hend : ∀ p, readFuns [.leaf .endOfInput p []] = some [] := fun _ => rfl
    have hfuns := readFuns_append (readFuns_append hread hread')
      (hend (0 + byteSize (b' ++ (t ++ u)) + byteSize b + byteSize z))
    rw [List.append_nil] at hfuns
    exact ⟨_, hprogram.rule, ofNodes?_program hfuns⟩

namespace Program

theorem Written.not_blank {cs : List Char} {p : Program} (h : p.Written cs) :
    cs.all isBlank = false := by
  obtain ⟨t, b, z, rfl, hdefs, hne, -, -, -⟩ := h
  have hmem : 'd' ∈ t := by
    obtain ⟨funs, span⟩ := p
    cases hdefs with
    | nil => exact absurd rfl hne
    | cons _ hf _ =>
      cases hf
      simp
  rw [List.all_eq_false]
  exact ⟨'d', by simp [hmem], by decide⟩

/-- **A source parses to a program if and only if it is a text of it.** -/
theorem parse_eq_ok_iff_written {s : String} {p : Program} :
    parse s = .ok p ↔ p.Written s.toList := by
  constructor
  · exact written_of_parse
  · intro h
    obtain ⟨ns, htakes, hread⟩ := h.takes
    exact parse_eq_ok_iff.mpr ⟨h.not_blank, s.toList, [], ns, by simp, htakes, hread⟩

end Program

end Offside
