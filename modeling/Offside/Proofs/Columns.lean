import Offside.Proofs.Places

/-!
# The columns in which code starts

Statements are found by the blanks before them.  The first line of a body is indented further than
the header above it, and every later line of the body, with the `elif` and `else` lines of its `if`
statements, starts after just as many blanks; the blanks themselves may differ.

* the blanks before an offset: `column?`, and what starts a line: `LineStart`;
* code with a text after it ends its last line: `ends_cases`, `FunDef.WrittenAt.endsLine`;
* statements in one column: `Stmt.LinesUp`, `Body.LinesUp`;
* **blocks are delimited by indentation**: `Program.blocks_indented`.
-/

namespace Offside

open Text Pattern

/-! ### Columns -/

/-- **The column of an offset**: the number of blanks between it and the line end before it, if
nothing else stands there. -/
def column? (cs : List Char) (pos : Nat) : Option Nat :=
  (takeBytes? cs pos).bind fun before =>
    let line := before.reverse.takeWhile CharClass.notLineEnd.contains
    if line.all CharClass.space.contains then some line.length else none

/-- A text after which a line starts. -/
def LineStart (l : List Char) : Prop :=
  ∀ x, l.getLast? = some x → CharClass.notLineEnd.contains x = false

/-- A text that ends in the end of a line. -/
def EndsLine (t : List Char) : Prop :=
  ∃ u x, t = u ++ [x] ∧ CharClass.notLineEnd.contains x = false

theorem notLineEnd_of_space {x : Char} (h : CharClass.space.contains x = true) :
    CharClass.notLineEnd.contains x = true := by
  rcases space_contains_iff.mp h with rfl | rfl <;> decide

/-- The column of what stands after the blanks of a line is the number of the blanks. -/
theorem column?_eq {l m r : List Char} (hl : LineStart l) (hm : Spaces m) :
    column? (l ++ (m ++ r)) (byteSize l + byteSize m) = some m.length := by
  have htake : takeBytes? (l ++ (m ++ r)) (byteSize l + byteSize m) = some (l ++ m) := by
    rw [takeBytes?_eq_some_iff, ← byteSize_append]
    exact ⟨r, by simp, rfl⟩
  have hline : (l ++ m).reverse.takeWhile CharClass.notLineEnd.contains = m.reverse := by
    have hstop : l.reverse.takeWhile CharClass.notLineEnd.contains = [] := by
      cases hrev : l.reverse with
      | nil => rfl
      | cons x u =>
        have hlast : l.getLast? = some x := by rw [List.getLast?_eq_head?_reverse, hrev]; rfl
        rw [List.takeWhile_cons_of_neg]
        simp [hl x hlast]
    rw [List.reverse_append, List.takeWhile_append_of_pos, hstop, List.append_nil]
    intro x hx
    exact notLineEnd_of_space (hm x (List.mem_reverse.mp hx))
  have hall : m.reverse.all CharClass.space.contains = true := by
    rw [List.all_eq_true]
    intro x hx
    exact hm x (List.mem_reverse.mp hx)
  rw [column?, htake, Option.bind_some]
  simp only [hline, hall, if_true, List.length_reverse]

/-! ### Where lines start -/

theorem LineStart.nil : LineStart [] := by
  intro x hx
  cases hx

theorem EndsLine.lineStart {t : List Char} (h : EndsLine t) (a : List Char) :
    LineStart (a ++ t) := by
  obtain ⟨u, x, rfl, hx⟩ := h
  intro y hy
  rw [← List.append_assoc, List.getLast?_concat] at hy
  cases hy
  exact hx

theorem EndsLine.append {t : List Char} (h : EndsLine t) (a : List Char) : EndsLine (a ++ t) := by
  obtain ⟨u, x, rfl, hx⟩ := h
  exact ⟨a ++ u, x, by simp, hx⟩

theorem EndsLine.append_or {t u : List Char} (ht : EndsLine t) (hu : u = [] ∨ EndsLine u) :
    EndsLine (t ++ u) := by
  rcases hu with rfl | hu
  · rwa [List.append_nil]
  · exact hu.append t

theorem LineBreak.endsLine {t : List Char} (h : LineBreak t) : EndsLine t := by
  rcases h with rfl | rfl | rfl
  · exact ⟨[], '\n', rfl, rfl⟩
  · exact ⟨['\r'], '\n', rfl, rfl⟩
  · exact ⟨[], '\r', rfl, rfl⟩

theorem EmptyLines.nil_or_endsLine {t : List Char} (h : EmptyLines t) : t = [] ∨ EndsLine t := by
  induction h with
  | nil => exact Or.inl rfl
  | @cons l t hl _ ih =>
    obtain ⟨a, b, n, rfl, -, -, hn⟩ := hl
    exact Or.inr (((hn.endsLine.append b).append a).append_or ih)

theorem LineStart.emptyLines {a b : List Char} (ha : LineStart a) (hb : EmptyLines b) :
    LineStart (a ++ b) := by
  rcases hb.nil_or_endsLine with rfl | hb
  · rwa [List.append_nil]
  · exact hb.lineStart a

/-- A line of code with a text after it ends in a line break. -/
theorem LineEnd.endsLine {t k : List Char} (h : LineEnd t k) (hk : k ≠ []) : EndsLine t := by
  obtain ⟨a, b, n, rfl, -, -, hn | ⟨-, rfl⟩⟩ := h
  · exact (hn.1.endsLine.append b).append a
  · exact absurd rfl hk

theorem Header.endsLine {t k : List Char} (h : Header t k) (hk : k ≠ []) : EndsLine t := by
  obtain ⟨a, c, e, b, rfl, -, -, he, hb⟩ := h
  have hend : EndsLine e := he.endsLine (by simp [hk])
  exact ((hend.append_or hb.nil_or_endsLine).append c).append a

/-! ### Texts end their last line -/

section
variable {pos : Nat} {t k : List Char} {ind : List (List Char)}

/-- A statement whose text ends its last line where there is a text after it. -/
def Stmt.Ends (s : Stmt) : Prop :=
  ∀ {ind : List (List Char)} {pos : Nat} {t k : List Char}, s.WrittenAt ind pos t k → k ≠ [] →
    EndsLine t

/-- A body whose text ends its last line where there is a text after it. -/
def Body.Ends (b : Body) : Prop :=
  ∀ {ind : List (List Char)} {pos : Nat} {t k : List Char}, b.WrittenAt ind pos t k → k ≠ [] →
    EndsLine t

theorem Block.WrittenAt.endsLine {b : Body} (hb : b.Ends) (h : Block.WrittenAt ind pos t k b)
    (hk : k ≠ []) : EndsLine t := by
  cases h with
  | @mk _ _ _ g _ _ _ hbody => exact (hb hbody hk).append g

theorem Branch.WrittenAt.endsLine {w : List Char} {br : Branch} (hb : br.body.Ends)
    (h : Branch.WrittenAt w ind pos t k br) (hk : k ≠ []) : EndsLine t := by
  cases h with
  | @mk _ _ _ _ _ g t _ _ _ _ _ hblock =>
    exact (((hblock.endsLine hb hk).append t).append g).append w

theorem Elifs.WrittenAt.endsLine {brs : List Branch} (hbrs : ∀ br ∈ brs, br.body.Ends)
    (h : Elifs.WrittenAt ind pos t k brs) (hk : k ≠ []) : t = [] ∨ EndsLine t := by
  induction brs generalizing pos t with
  | nil =>
    cases h
    exact Or.inl rfl
  | cons br brs ih =>
    cases h with
    | @cons _ _ _ _ l _ _ _ _ hbr hrest =>
      have hfirst := hbr.endsLine (hbrs br (List.mem_cons_self ..)) (by simp [hk])
      have hothers := ih (fun br' h' => hbrs br' (List.mem_cons_of_mem _ h')) hrest
      exact Or.inr (((hfirst.append_or hothers).append ind.flatten).append l)

theorem Else.WrittenAt.endsLine {o : Option Body} (ho : ∀ b ∈ o, b.Ends)
    (h : Else.WrittenAt ind pos t k o) (hk : k ≠ []) : t = [] ∨ EndsLine t := by
  cases h with
  | absent => exact Or.inl rfl
  | @present _ _ _ l _ _ _ hblock =>
    have hend := hblock.endsLine (ho _ rfl) hk
    exact Or.inr (((hend.append ['e', 'l', 's', 'e']).append ind.flatten).append l)

theorem Lines.WrittenAt.endsLine {ss : List Stmt} (hss : ∀ s ∈ ss, s.Ends)
    (h : Lines.WrittenAt ind pos t k ss) (hk : k ≠ []) : t = [] ∨ EndsLine t := by
  induction ss generalizing pos t with
  | nil =>
    cases h
    exact Or.inl rfl
  | cons s ss ih =>
    cases h with
    | @cons _ _ _ _ l _ _ _ _ hs hrest =>
      have hfirst := hss s (List.mem_cons_self ..) hs (by simp [hk])
      have hothers := ih (fun s' h' => hss s' (List.mem_cons_of_mem _ h')) hrest
      exact Or.inr (((hfirst.append_or hothers).append ind.flatten).append l)

theorem ends_cases : Stmt.Cases Stmt.Ends Body.Ends where
  line e span := by
    intro ind pos t k h hk
    cases h with
    | @line _ _ _ t _ _ _ hv => exact (hv.endsLine hk).append t
  block b span hb := by
    intro ind pos t k h hk
    cases h with
    | block hblock => exact (hblock.endsLine hb hk).append ['d', 'o']
  cond brs o span hbrs ho := by
    intro ind pos t k h hk
    cases h with
    | @cond _ _ br _ _ t u v _ hbr helifs helse =>
      have hfirst := hbr.endsLine (hbrs br (List.mem_cons_self ..)) (by simp [hk])
      have hothers := helifs.endsLine (fun br' h' => hbrs br' (List.mem_cons_of_mem _ h'))
        (by simp [hk])
      rw [← List.append_assoc]
      exact (hfirst.append_or hothers).append_or (helse.endsLine ho hk)
  body ss span hss := by
    intro ind pos t k h hk
    cases h with
    | @mk _ _ s _ own _ _ _ _ _ hs hlines =>
      have hfirst := hss s (List.mem_cons_self ..) hs (by simp [hk])
      have hothers := hlines.endsLine (fun s' h' => hss s' (List.mem_cons_of_mem _ h')) hk
      exact ((hfirst.append_or hothers).append own).append ind.flatten

/-- A function with a text after it ends its last line. -/
theorem FunDef.WrittenAt.endsLine {d : FunDef} (h : d.WrittenAt pos t k) (hk : k ≠ []) :
    EndsLine t := by
  cases h with
  | @mk _ _ _ g t a l _ _ _ _ _ _ _ hblock =>
    have hend := hblock.endsLine (ends_cases.body' _) hk
    exact ((((((hend.append [')']).append l).append ['(']).append a).append t).append g).append
      ['d', 'e', 'f']

end

/-! ### Code in one column -/

/-- A keyword stands first on its line, in column `n`, and after it a gap up to an offset. -/
def KeywordBefore (cs : List Char) (n : Nat) (w : List Char) (Gap : List Char → Prop)
    (stop : Nat) : Prop :=
  ∃ pos g, column? cs pos = some n ∧ StandsAt cs pos w ∧ StandsAt cs (pos + byteSize w) g ∧ Gap g ∧
    pos + byteSize w + byteSize g = stop

/-- The branches of a statement that start with `elif`. -/
def Stmt.elifs : Stmt → List Branch
  | .cond brs _ _ => brs.tail
  | _ => []

/-- The body of a statement that stands below `else`. -/
def Stmt.otherwise? : Stmt → Option Body
  | .cond _ o _ => o
  | _ => none

/-- The bodies right below a statement. -/
def Stmt.bodies : Stmt → List Body
  | .line _ _ => []
  | .block b _ => [b]
  | .cond brs o _ => brs.map Branch.body ++ o.toList

/-- **The statement starts in column `n`**, and so do its `elif` and `else` lines. -/
structure Stmt.LinesUp (cs : List Char) (n : Nat) (s : Stmt) : Prop where
  start : column? cs s.span.start = some n
  elifs : ∀ br ∈ s.elifs, KeywordBefore cs n ['e', 'l', 'i', 'f'] Spaces br.test.span.start
  otherwise : ∀ b ∈ s.otherwise?,
    KeywordBefore cs n ['e', 'l', 's', 'e'] (fun g => ∃ k, Header g k) b.span.start

/-- All statements of the body start in column `n`. -/
def Body.LinesUp (cs : List Char) (n : Nat) (b : Body) : Prop :=
  b.stmts ≠ [] ∧ ∀ s ∈ b.stmts, s.LinesUp cs n

/-- The statements of the body start in one column, further to the right than column `n`. -/
def Body.Deeper (cs : List Char) (n : Nat) (b : Body) : Prop :=
  ∃ m, n < m ∧ b.LinesUp cs m

/-- The bodies right below the statement stand further to the right than it. -/
def Stmt.Nests (cs : List Char) (s : Stmt) : Prop :=
  ∃ n, s.LinesUp cs n ∧ ∀ b ∈ s.bodies, b.Deeper cs n

theorem Stmt.mem_items_iff {s s' : Stmt} :
    .stmt s' ∈ s.items ↔ s' = s ∨ ∃ b ∈ s.bodies, .stmt s' ∈ b.items := by
  cases s with
  | line e span => simp [Stmt.mem_items_line, Stmt.bodies]
  | block b span => simp [Stmt.mem_items_block, Stmt.bodies]
  | cond brs o span =>
    rw [Stmt.mem_items_cond]
    grind [Stmt.bodies, Option.mem_def]

/-! ### Texts in their column -/

/-- The text `t` stands in the source right after `a`, which ends at an offset. -/
def StandsAfter (cs a : List Char) (pos : Nat) (t : List Char) : Prop :=
  (∃ r, cs = a ++ (t ++ r)) ∧ byteSize a = pos

namespace StandsAfter

variable {cs a t u l m : List Char} {pos : Nat}

theorem standsAt (h : StandsAfter cs a pos t) : StandsAt cs pos t := by
  obtain ⟨⟨r, hr⟩, hpos⟩ := h
  exact ⟨a, r, hr, hpos⟩

theorem left (h : StandsAfter cs a pos (t ++ u)) : StandsAfter cs a pos t := by
  obtain ⟨⟨r, rfl⟩, hpos⟩ := h
  exact ⟨⟨u ++ r, by simp⟩, hpos⟩

theorem right (h : StandsAfter cs a pos (t ++ u)) :
    StandsAfter cs (a ++ t) (pos + byteSize t) u := by
  obtain ⟨⟨r, rfl⟩, hpos⟩ := h
  exact ⟨⟨r, by simp⟩, by rw [byteSize_append, hpos]⟩

theorem column? (h : StandsAfter cs (l ++ m) pos t) (hl : LineStart l) (hm : Spaces m) :
    column? cs pos = some m.length := by
  obtain ⟨⟨r, rfl⟩, rfl⟩ := h
  rw [byteSize_append, List.append_assoc]
  exact column?_eq hl hm

end StandsAfter

section
variable {cs : List Char}

/-- A body in the right place below column `n`, with all statements in it. -/
def Body.Fits (cs : List Char) (n : Nat) (b : Body) : Prop :=
  b.Deeper cs n ∧ ∀ s, .stmt s ∈ b.items → s.Nests cs

/-- A statement in column `n`, with all statements in it in the right place. -/
def Stmt.Fits (cs : List Char) (n : Nat) (s : Stmt) : Prop :=
  s.LinesUp cs n ∧ ∀ s', .stmt s' ∈ s.items → s'.Nests cs

theorem Stmt.LinesUp.fits {n : Nat} {s : Stmt} (h : s.LinesUp cs n)
    (hb : ∀ b ∈ s.bodies, b.Fits cs n) : s.Fits cs n := by
  refine ⟨h, fun s' hs' => ?_⟩
  rcases Stmt.mem_items_iff.mp hs' with rfl | ⟨b, hmem, hs'⟩
  · exact ⟨n, h, fun b hmem => (hb b hmem).1⟩
  · exact (hb b hmem).2 s' hs'

/-- A statement that fits wherever it is written after blanks. -/
def Stmt.FitsAfter (cs : List Char) (s : Stmt) : Prop :=
  ∀ {ind : List (List Char)} {pos : Nat} {l m t k : List Char}, (∀ i ∈ ind, Spaces i) →
    StandsAfter cs (l ++ m) pos t → LineStart l → Spaces m → m.length = ind.flatten.length →
    s.WrittenAt ind pos t k → s.Fits cs ind.flatten.length

/-- A body that fits wherever it is written at the start of a line. -/
def Body.FitsAfter (cs : List Char) (b : Body) : Prop :=
  ∀ {ind : List (List Char)} {pos : Nat} {a t k : List Char}, (∀ i ∈ ind, Spaces i) →
    StandsAfter cs a pos t → LineStart a → b.WrittenAt ind pos t k → b.Fits cs ind.flatten.length

variable {pos : Nat} {a l m t k : List Char} {ind : List (List Char)}

theorem Block.WrittenAt.fits {b : Body} (hb : b.FitsAfter cs) (hind : ∀ i ∈ ind, Spaces i)
    (hs : StandsAfter cs a pos t) (h : Block.WrittenAt ind pos t k b) :
    b.Fits cs ind.flatten.length := by
  cases h with
  | mk hheader hbody =>
    have hend : EndsLine _ := hheader.endsLine (by simp [hbody.ne_nil])
    exact hb hind hs.right (hend.lineStart a) hbody

theorem Branch.WrittenAt.fits {w : List Char} {br : Branch} (hb : br.body.FitsAfter cs)
    (hind : ∀ i ∈ ind, Spaces i) (hs : StandsAfter cs a pos t)
    (h : Branch.WrittenAt w ind pos t k br) : br.body.Fits cs ind.flatten.length := by
  cases h with
  | mk _ _ _ hblock => exact hblock.fits hb hind hs.right.right.right

theorem Branch.WrittenAt.keyword {w : List Char} {br : Branch} (hs : StandsAfter cs (l ++ m) pos t)
    (hl : LineStart l) (hm : Spaces m) (h : Branch.WrittenAt w ind pos t k br) :
    KeywordBefore cs m.length w Spaces br.test.span.start := by
  cases h with
  | @mk _ _ _ e _ g _ _ _ hg _ he _ =>
    have hstart : e.span.start = pos + byteSize w + byteSize g := by rw [he.span_eq, Span.over]
    exact ⟨pos, g, hs.column? hl hm, hs.left.standsAt, hs.right.left.standsAt, hg, hstart.symm⟩

theorem Elifs.WrittenAt.fits {brs : List Branch} (hbrs : ∀ br ∈ brs, br.body.FitsAfter cs)
    (hind : ∀ i ∈ ind, Spaces i) (hs : StandsAfter cs a pos t) (ha : t ≠ [] → LineStart a)
    (h : Elifs.WrittenAt ind pos t k brs) : ∀ br ∈ brs,
      KeywordBefore cs ind.flatten.length ['e', 'l', 'i', 'f'] Spaces br.test.span.start ∧
      br.body.Fits cs ind.flatten.length := by
  induction brs generalizing a pos t with
  | nil => simp
  | cons br brs ih =>
    cases h with
    | @cons _ _ _ _ b t u _ hb hbr hrest =>
      have hne : t ≠ [] := by cases hbr; simp
      have hline : LineStart (a ++ b) := (ha (by simp [hne])).emptyLines hb
      have hnext : u ≠ [] → LineStart (a ++ b ++ ind.flatten ++ t) := fun hu =>
        (hbr.endsLine (ends_cases.body' _) (by simp [hu])).lineStart _
      have hothers := ih (fun br' h' => hbrs br' (List.mem_cons_of_mem _ h'))
        hs.right.right.right hnext hrest
      have hfits := hbr.fits (hbrs br (List.mem_cons_self ..)) hind hs.right.right.left
      have hkeyword := hbr.keyword hs.right.right.left hline (.flatten hind)
      exact List.forall_mem_cons.mpr ⟨⟨hkeyword, hfits⟩, hothers⟩

theorem Else.WrittenAt.fits {o : Option Body} (ho : ∀ b ∈ o, b.FitsAfter cs)
    (hind : ∀ i ∈ ind, Spaces i) (hs : StandsAfter cs a pos t) (ha : t ≠ [] → LineStart a)
    (h : Else.WrittenAt ind pos t k o) : ∀ b ∈ o,
      KeywordBefore cs ind.flatten.length ['e', 'l', 's', 'e'] (fun g => ∃ k, Header g k)
        b.span.start ∧
      b.Fits cs ind.flatten.length := by
  cases h with
  | absent => simp
  | @present _ _ body b u _ hb hblock =>
    have hline : LineStart (a ++ b) := (ha (by simp)).emptyLines hb
    have hkeyword := hs.right.right
    have hfits := hblock.fits (ho body rfl) hind hkeyword.right
    rintro _ ⟨⟩
    refine ⟨?_, hfits⟩
    cases hblock with
    | @mk _ _ _ g _ _ hheader hbody =>
      refine ⟨_, g, hkeyword.column? hline (.flatten hind), hkeyword.left.standsAt,
        hkeyword.right.left.standsAt, ⟨_, hheader⟩, ?_⟩
      rw [hbody.span_eq, Span.over]

theorem Lines.WrittenAt.fits {ss : List Stmt} (hss : ∀ s ∈ ss, s.FitsAfter cs)
    (hind : ∀ i ∈ ind, Spaces i) (hs : StandsAfter cs a pos t) (ha : t ≠ [] → LineStart a)
    (h : Lines.WrittenAt ind pos t k ss) : ∀ s ∈ ss, s.Fits cs ind.flatten.length := by
  induction ss generalizing a pos t with
  | nil => simp
  | cons s ss ih =>
    cases h with
    | @cons _ _ _ _ b u v _ hb hstmt hrest =>
      have hne : u ≠ [] := by
        obtain ⟨x, w, rfl, -⟩ := hstmt.head
        simp
      have hline : LineStart (a ++ b) := (ha (by simp [hne])).emptyLines hb
      have hnext : v ≠ [] → LineStart (a ++ b ++ ind.flatten ++ u) := fun hv =>
        EndsLine.lineStart (ends_cases.stmt s hstmt (by simp [hv])) _
      have hothers := ih (fun s' h' => hss s' (List.mem_cons_of_mem _ h'))
        hs.right.right.right hnext hrest
      have hfirst := hss s (List.mem_cons_self ..) hind hs.right.right.left hline (.flatten hind) rfl
        hstmt
      exact List.forall_mem_cons.mpr ⟨hfirst, hothers⟩

theorem Stmt.WrittenAt.column? {s : Stmt} (hs : StandsAfter cs (l ++ m) pos t) (hl : LineStart l)
    (hm : Spaces m) (h : s.WrittenAt ind pos t k) : column? cs s.span.start = some m.length := by
  cases h <;> exact hs.column? hl hm

theorem fits_cases : Stmt.Cases (Stmt.FitsAfter cs) (Body.FitsAfter cs) where
  line e span := by
    intro ind pos l m t k hind hs hl hm hlen h
    have hcolumn := h.column? hs hl hm
    rw [hlen] at hcolumn
    have hline : Stmt.LinesUp cs ind.flatten.length (.line e span) :=
      ⟨hcolumn, by simp [Stmt.elifs], by simp [Stmt.otherwise?]⟩
    exact hline.fits (by simp [Stmt.bodies])
  block b span hb := by
    intro ind pos l m t k hind hs hl hm hlen h
    have hcolumn := h.column? hs hl hm
    rw [hlen] at hcolumn
    have hline : Stmt.LinesUp cs ind.flatten.length (.block b span) :=
      ⟨hcolumn, by simp [Stmt.elifs], by simp [Stmt.otherwise?]⟩
    refine hline.fits fun b' hb' => ?_
    rw [List.mem_singleton.mp hb']
    cases h with
    | block hblock => exact hblock.fits hb hind hs.right
  cond brs o span hbrs ho := by
    intro ind pos l m t k hind hs hl hm hlen h
    have hcolumn := h.column? hs hl hm
    rw [hlen] at hcolumn
    cases h with
    | @cond _ _ br brs _ t u v _ hbr helifs helse =>
      have hfirst := hbr.fits (hbrs br (List.mem_cons_self ..)) hind hs.left
      -- an `elif` or `else` line needs the lines before it to have ended
      have hnext : u ≠ [] → LineStart (l ++ m ++ t) := fun hu =>
        (hbr.endsLine (ends_cases.body' _) (by simp [hu])).lineStart _
      have hlast : v ≠ [] → LineStart (l ++ m ++ t ++ u) := by
        intro hv
        have hend := hbr.endsLine (ends_cases.body' _) (by simp [hv])
        have helifsEnd := helifs.endsLine (fun br' _ => ends_cases.body' _) (by simp [hv])
        rw [List.append_assoc]
        exact (hend.append_or helifsEnd).lineStart _
      have hothers := helifs.fits (fun br' h' => hbrs br' (List.mem_cons_of_mem _ h')) hind
        hs.right.left hnext
      have helse' := helse.fits ho hind hs.right.right hlast
      have hline : Stmt.LinesUp cs ind.flatten.length
          (.cond (br :: brs) o (.over pos (t ++ (u ++ v)))) :=
        ⟨hcolumn, fun br' h' => (hothers br' h').1, fun b h' => (helse' b h').1⟩
      refine hline.fits fun b hb => ?_
      rcases List.mem_append.mp hb with hb | hb
      · obtain ⟨br', hbr', rfl⟩ := List.mem_map.mp hb
        rcases List.mem_cons.mp hbr' with rfl | hbr'
        · exact hfirst
        · exact (hothers br' hbr').2
      · exact (helse' b (Option.mem_toList.mp hb)).2
  body ss span hss := by
    intro ind pos a t k hind hs ha h
    cases h with
    | @mk _ _ s ss own u v _ hown hspaces hstmt hlines =>
      have hinner : ∀ i ∈ own :: ind, Spaces i := List.forall_mem_cons.mpr ⟨hspaces, hind⟩
      have hplace := hs.right.right
      have hnext : v ≠ [] → LineStart (a ++ ind.flatten ++ own ++ u) := fun hv =>
        EndsLine.lineStart (ends_cases.stmt s hstmt (by simp [hv])) _
      have hothers := hlines.fits (fun s' h' => hss s' (List.mem_cons_of_mem _ h')) hinner
        hplace.right hnext
      -- the blanks of the first line are those of the others in another order
      have hfirst : s.Fits cs (own :: ind).flatten.length := by
        have hafter := hplace.left
        rw [List.append_assoc] at hafter
        have hblanks : Spaces (ind.flatten ++ own) := (Spaces.flatten hind).append hspaces
        have hlen : (ind.flatten ++ own).length = (own :: ind).flatten.length := by
          rw [List.flatten_cons, List.length_append, List.length_append]
          omega
        exact hss s (List.mem_cons_self ..) hinner hafter ha hblanks hlen hstmt
      have hall : ∀ s' ∈ s :: ss, s'.Fits cs (own :: ind).flatten.length :=
        List.forall_mem_cons.mpr ⟨hfirst, hothers⟩
      have hdeeper : ind.flatten.length < (own :: ind).flatten.length := by
        have := List.length_pos_iff.mpr hown
        rw [List.flatten_cons, List.length_append]
        omega
      refine ⟨⟨_, hdeeper, by simp [Body.stmts], fun s' hs' => (hall s' hs').1⟩, fun s' hs' => ?_⟩
      obtain ⟨s'', hmem, hs'⟩ := Body.stmt_mem_items_mk.mp hs'
      exact (hall s'' hmem).2 s' hs'

/-! ### All columns of a program -/

theorem FunDef.WrittenAt.fits {d : FunDef} (hs : StandsAfter cs a pos t) (ha : LineStart a)
    (h : d.WrittenAt pos t k) : column? cs d.span.start = some 0 ∧ d.body.Fits cs 0 := by
  have hcolumn : column? cs pos = some 0 := by
    have hafter : StandsAfter cs (a ++ []) pos t := by rwa [List.append_nil]
    exact hafter.column? ha Spaces.nil
  cases h with
  | mk _ _ _ _ _ hblock =>
    have hplace := hs.right.right.right.right.right.right.right
    exact ⟨hcolumn, hblock.fits (fits_cases.body' _) (by simp) hplace⟩

theorem Defs.WrittenAt.fits {ds : List FunDef} (hs : StandsAfter cs a pos t)
    (ha : t ≠ [] → LineStart a) (h : Defs.WrittenAt pos t k ds) :
    ∀ d ∈ ds, column? cs d.span.start = some 0 ∧ d.body.Fits cs 0 := by
  induction h generalizing a with
  | nil => simp
  | @cons _ d _ b t u _ hb hd _ ih =>
    have hne : t ≠ [] := by
      obtain ⟨x, w, rfl, -⟩ := hd.solid
      simp
    have hline : LineStart (a ++ b) := (ha (by simp [hne])).emptyLines hb
    have hnext : u ≠ [] → LineStart (a ++ b ++ t) := fun hu =>
      (hd.endsLine (by simp [hu])).lineStart _
    have hothers := ih hs.right.right hnext
    exact List.forall_mem_cons.mpr ⟨hd.fits hs.right.left hline, hothers⟩

end

/-- **Blocks are delimited by indentation**: functions start in column zero, the statements of a body
start in one column with the `elif` and `else` lines of the `if` statements among them, and that
column is further to the right than that of the line the body belongs to. -/
theorem Program.blocks_indented {source : String} {p : Program} (h : parse source = .ok p) :
    (∀ f ∈ p.funs, column? source.toList f.span.start = some 0 ∧ f.body.Deeper source.toList 0) ∧
    ∀ s, .stmt s ∈ p.items → s.Nests source.toList := by
  obtain ⟨t, b, z, hsource, hdefs, -, -, -, -⟩ := written_of_parse h
  have hs : StandsAfter source.toList [] 0 t := ⟨⟨b ++ z, hsource⟩, rfl⟩
  have hfits := hdefs.fits hs fun _ => LineStart.nil
  refine ⟨fun f hf => ⟨(hfits f hf).1, (hfits f hf).2.1⟩, fun s hs => ?_⟩
  obtain ⟨f, hf, hs⟩ := List.mem_flatMap.mp hs
  have hbody : .stmt s ∈ f.body.items := by
    simpa [FunDef.items] using hs
  exact (hfits f hf).2.2 s hbody

/-- Two lines of one body, at the offsets 17 and 21, whose blanks are not the same. -/
theorem Program.blocks_indented_mixed : ∃ p,
    parse "def f(x)\n if x\n \ty\n\t z\n else:\n  2\n" = .ok p ∧ p.funs.length = 1 ∧
    (∀ f ∈ p.funs, f.body.Deeper "def f(x)\n if x\n \ty\n\t z\n else:\n  2\n".toList 0) ∧
    (∀ s, .stmt s ∈ p.items → s.Nests "def f(x)\n if x\n \ty\n\t z\n else:\n  2\n".toList) ∧
    column? "def f(x)\n if x\n \ty\n\t z\n else:\n  2\n".toList 17 = some 2 ∧
    column? "def f(x)\n if x\n \ty\n\t z\n else:\n  2\n".toList 21 = some 2 := by
  have h : (parse "def f(x)\n if x\n \ty\n\t z\n else:\n  2\n").toOption.map
      (fun p => p.funs.length) = some 1 := by
    decide +kernel
  obtain ⟨p, hp, hlength⟩ := Option.map_eq_some_iff.mp h
  have hparse := parse_eq_ok_of_toOption hp
  obtain ⟨hfuns, hstmts⟩ := blocks_indented hparse
  exact ⟨p, hparse, hlength, fun f hf => (hfuns f hf).2, hstmts, by decide +kernel,
    by decide +kernel⟩

end Offside
