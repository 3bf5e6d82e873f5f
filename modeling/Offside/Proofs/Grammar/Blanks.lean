import Offside.Proofs.Grammar.Laws

/-!
# Blanks, comments and line ends

What the patterns for white space take, as plain predicates on texts.  A line break is taken as far
as it goes: a carriage return goes together with a line feed that follows it (`Break`).  So a line
that ends in a carriage return swallows an empty line that is a line feed only; for the text of
several empty lines (`EmptyLines`) this makes no difference.

* `takes_eol_iff`, `takes_blank_iff`: line ends and lines without code;
* `takes_blanks_iff`: the lines without code before some text are taken all at once.
-/

namespace Offside

open Text Pattern

/-- Blanks inside a line. -/
def Spaces (t : List Char) : Prop :=
  ∀ x ∈ t, CharClass.space.contains x = true

/-- A comment, or nothing. -/
def Comment (t : List Char) : Prop :=
  t = [] ∨ ∃ u, t = '#' :: u ∧ ∀ x ∈ u, CharClass.notLineEnd.contains x = true

/-- The text of a line break. -/
def LineBreak (t : List Char) : Prop :=
  t = ['\n'] ∨ t = ['\r', '\n'] ∨ t = ['\r']

/-- A line break that does not go on in the text after it. -/
def Break (t k : List Char) : Prop :=
  LineBreak t ∧ (t = ['\r'] → k.head? ≠ some '\n')

/-- A line without code. -/
def EmptyLine (t : List Char) : Prop :=
  ∃ a b n, t = a ++ (b ++ n) ∧ Spaces a ∧ Comment b ∧ LineBreak n

/-- Lines without code. -/
inductive EmptyLines : List Char → Prop
  | nil : EmptyLines []
  | cons {l t : List Char} : EmptyLine l → EmptyLines t → EmptyLines (l ++ t)

/-- The end of a line of code before the text `k`; the last line of a source needs no line break. -/
def LineEnd (t k : List Char) : Prop :=
  ∃ a b n, t = a ++ (b ++ n) ∧ Spaces a ∧ Comment b ∧ (Break n k ∨ n = [] ∧ k = [])

/-- A text that starts with a character of code. -/
def Solid (k : List Char) : Prop :=
  ∃ x w, k = x :: w ∧ x ∉ [' ', '\t', '#', '\n', '\r']

/-- The end of a source: blanks and perhaps a comment. -/
def LastLine (k : List Char) : Prop :=
  ∃ a b, k = a ++ b ∧ Spaces a ∧ Comment b

/-- A text that does not start with a line without code. -/
def NoEmptyLine (k : List Char) : Prop :=
  ∀ l k', k = l ++ k' → ¬ EmptyLine l

/-- A text that is empty or starts with a line break. -/
def AtBreak (k : List Char) : Prop :=
  ∀ x, k.head? = some x → x = '\n' ∨ x = '\r'

/-! ### Small facts -/

theorem space_contains_iff {x : Char} : CharClass.space.contains x = true ↔ x = ' ' ∨ x = '\t' := by
  simp [CharClass.contains]

theorem notLineEnd_contains_iff {x : Char} :
    CharClass.notLineEnd.contains x = true ↔ x ≠ '\n' ∧ x ≠ '\r' := by
  simp [CharClass.contains]

theorem Spaces.nil : Spaces [] := by
  intro x hx
  cases hx

theorem Spaces.append {a b : List Char} (ha : Spaces a) (hb : Spaces b) : Spaces (a ++ b) := by
  intro x hx
  rcases List.mem_append.mp hx with hx | hx
  · exact ha x hx
  · exact hb x hx

theorem Spaces.flatten {ls : List (List Char)} (h : ∀ l ∈ ls, Spaces l) : Spaces ls.flatten := by
  intro x hx
  obtain ⟨l, hl, hx⟩ := List.mem_flatten.mp hx
  exact h l hl x hx

theorem LineBreak.cases {t : List Char} (h : LineBreak t) :
    ∃ x u, t = x :: u ∧ (x = '\n' ∨ x = '\r') := by
  rcases h with rfl | rfl | rfl
  · exact ⟨_, _, rfl, Or.inl rfl⟩
  · exact ⟨_, _, rfl, Or.inr rfl⟩
  · exact ⟨_, _, rfl, Or.inr rfl⟩

theorem AtBreak.of_lineBreak {t k : List Char} (h : LineBreak t) : AtBreak (t ++ k) := by
  obtain ⟨x, u, rfl, hx⟩ := h.cases
  intro y hy
  cases hy
  exact hx

theorem AtBreak.stops_space {k : List Char} (h : AtBreak k) : Stops .space k := by
  intro x hx
  rcases h x hx with rfl | rfl <;> rfl

theorem AtBreak.stops_notLineEnd {k : List Char} (h : AtBreak k) : Stops .notLineEnd k := by
  intro x hx
  rcases h x hx with rfl | rfl <;> rfl

theorem AtBreak.head_ne {k : List Char} (h : AtBreak k) : k.head? ≠ some '#' := by
  intro hx
  rcases h _ hx with h | h <;> cases h

theorem Solid.stops_space {k : List Char} (h : Solid k) : Stops .space k := by
  obtain ⟨x, w, rfl, hx⟩ := h
  intro y hy
  cases hy
  rw [← Bool.not_eq_true, space_contains_iff]
  rintro (rfl | rfl) <;> simp at hx

theorem Solid.append {k l : List Char} (h : Solid k) : Solid (k ++ l) := by
  obtain ⟨x, w, rfl, hx⟩ := h
  exact ⟨x, w ++ l, rfl, hx⟩

namespace Pattern

variable {p : Pattern} {ind : List (List Char)} {pos : Nat} {t k cs : List Char} {ns : List Node}

/-! ### Patterns of one line -/

theorem takes_sp_iff : sp.Takes ind pos t k ns ↔ Spaces t ∧ Stops .space k ∧ ns = [] :=
  takes_many_iff

theorem takes_newline_iff : newline.Takes ind pos t k ns ↔ Break t k ∧ ns = [] := by
  change (alt (text ['\n']) (alt (text ['\r', '\n']) (text ['\r']))).Takes ind pos t k ns ↔ _
  simp only [takes_alt_iff, takes_text_iff, refuses_text_iff, Break, LineBreak]
  constructor
  · rintro (⟨rfl, rfl⟩ | ⟨h₁, ⟨rfl, rfl⟩ | ⟨h₂, rfl, rfl⟩⟩)
    · simp
    · simp
    · refine ⟨⟨by simp, fun _ hk => h₂ ?_⟩, rfl⟩
      obtain ⟨u, rfl⟩ := List.head?_eq_some_iff.mp hk
      exact ⟨u, rfl⟩
  · rintro ⟨⟨rfl | rfl | rfl, hk⟩, rfl⟩
    · exact Or.inl ⟨rfl, rfl⟩
    · exact Or.inr ⟨by simp, Or.inl ⟨rfl, rfl⟩⟩
    · refine Or.inr ⟨by simp, Or.inr ⟨?_, rfl, rfl⟩⟩
      rintro ⟨u, hu⟩
      refine hk rfl ?_
      simp only [List.cons_append, List.nil_append, List.cons.injEq, true_and] at hu
      rw [← hu]
      rfl

theorem refuses_newline_iff :
    newline.Refuses ind pos cs ↔ ∀ x, cs.head? = some x → x ≠ '\n' ∧ x ≠ '\r' := by
  change (alt (text ['\n']) (alt (text ['\r', '\n']) (text ['\r']))).Refuses ind pos cs ↔ _
  simp only [refuses_alt_iff, refuses_text_iff]
  cases cs with
  | nil => simp
  | cons x xs =>
    simp only [List.cons_prefix_cons, List.nil_prefix, and_true, List.head?_cons,
      Option.some.injEq, forall_eq']
    constructor
    · rintro ⟨h₁, -, h₂⟩
      exact ⟨fun h => h₁ h.symm, fun h => h₂ h.symm⟩
    · rintro ⟨h₁, h₂⟩
      exact ⟨fun h => h₁ h.symm, fun h => h₂ h.1.symm, fun h => h₂ h.symm⟩

theorem takes_optComment_iff :
    (opt comment).Takes ind pos t k ns ↔ ns = [] ∧ Comment t ∧
      (t = [] → k.head? ≠ some '#') ∧ (t ≠ [] → Stops .notLineEnd k) := by
  rw [takes_opt_iff]
  unfold comment Comment
  rw [takes_seq_iff (by rfl), refuses_seq_iff (by rfl)]
  simp only [takes_char_iff, takes_many_iff, refuses_char_iff]
  constructor
  · rintro (⟨_, u, _, _, rfl, rfl, ⟨rfl, rfl⟩, hu, hk, rfl⟩ | ⟨hk | ⟨_, b, _, -, -, h⟩, rfl, rfl⟩)
    · exact ⟨rfl, Or.inr ⟨u, rfl, hu⟩, by simp, fun _ => hk⟩
    · exact ⟨rfl, Or.inl rfl, fun _ => hk, by simp⟩
    · exact absurd h not_refuses_many
  · rintro ⟨rfl, rfl | ⟨u, rfl, hu⟩, h₁, h₂⟩
    · exact Or.inr ⟨Or.inl (h₁ rfl), rfl, rfl⟩
    · exact Or.inl ⟨['#'], u, [], [], rfl, rfl, ⟨rfl, rfl⟩, hu, h₂ (by simp), rfl⟩

/-- Blanks and a comment go as far as the line break or the end of the source that `p` asks for. -/
theorem takes_tail_iff
    (hp : ∀ {pos n ns}, p.Takes ind pos n k ns → AtBreak (n ++ k)) :
    (all [sp, opt comment, p]).Takes ind pos t k ns ↔ ∃ a b n, t = a ++ (b ++ n) ∧ Spaces a ∧
      Comment b ∧ p.Takes ind (pos + byteSize a + byteSize b) n k ns := by
  change (seq sp (seq (opt comment) p)).Takes ind pos t k ns ↔ _
  rw [takes_seq_iff (by rfl)]
  simp only [takes_sp_iff]
  constructor
  · rintro ⟨a, c, _, ms, rfl, rfl, ⟨ha, -, rfl⟩, h⟩
    obtain ⟨b, n, _, ms, rfl, rfl, hb, hn⟩ := (takes_seq_iff (by rfl)).mp h
    obtain ⟨rfl, hb, -, -⟩ := takes_optComment_iff.mp hb
    exact ⟨a, b, n, rfl, ha, hb, hn⟩
  · rintro ⟨a, b, n, rfl, ha, hb, hn⟩
    have hbreak := hp hn
    have hstop : Stops .space (b ++ n ++ k) := by
      rcases hb with rfl | ⟨u, rfl, -⟩
      · exact hbreak.stops_space
      · intro x hx
        cases hx
        rfl
    refine ⟨a, b ++ n, [], ns, rfl, rfl, ⟨ha, hstop, rfl⟩, ?_⟩
    have hcom : (opt comment).Takes ind (pos + byteSize a) b (n ++ k) [] :=
      takes_optComment_iff.mpr
        ⟨rfl, hb, fun _ => hbreak.head_ne, fun _ => hbreak.stops_notLineEnd⟩
    exact hcom.seq hn

/-- **A line without code.** -/
theorem takes_blank_iff :
    blank.Takes ind pos t k ns ↔
      ns = [] ∧ ∃ a b n, t = a ++ (b ++ n) ∧ Spaces a ∧ Comment b ∧ Break n k := by
  unfold blank
  rw [takes_tail_iff fun h => .of_lineBreak (takes_newline_iff.mp h).1.1]
  simp only [takes_newline_iff]
  constructor
  · rintro ⟨a, b, n, rfl, ha, hb, hn, rfl⟩
    exact ⟨rfl, a, b, n, rfl, ha, hb, hn⟩
  · rintro ⟨rfl, a, b, n, rfl, ha, hb, hn⟩
    exact ⟨a, b, n, rfl, ha, hb, hn, rfl⟩

theorem takes_endOfInput_iff :
    (rule .endOfInput).Takes ind pos t k ns ↔
      t = [] ∧ k = [] ∧ ns = [.leaf .endOfInput pos []] := by
  rw [takes_rule_iff]
  change (∃ inner, stop.Takes ind pos t k inner ∧ _) ↔ _
  simp only [takes_stop_iff]
  constructor
  · rintro ⟨_, ⟨rfl, rfl, rfl⟩, rfl⟩
    exact ⟨rfl, rfl, rfl⟩
  · rintro ⟨rfl, rfl, rfl⟩
    exact ⟨[], ⟨rfl, rfl, rfl⟩, rfl⟩

theorem refuses_endOfInput_iff : (rule .endOfInput).Refuses ind pos cs ↔ cs ≠ [] := by
  rw [refuses_rule_iff]
  exact refuses_stop_iff

theorem takes_breakOrEnd_iff :
    (alt newline (ahead (rule .endOfInput))).Takes ind pos t k ns ↔
      ns = [] ∧ (Break t k ∨ t = [] ∧ k = []) := by
  rw [takes_alt_iff, takes_newline_iff, takes_ahead_iff, refuses_newline_iff,
    refuses_endOfInput_iff]
  constructor
  · rintro (⟨h, rfl⟩ | ⟨-, rfl, rfl, h⟩)
    · exact ⟨rfl, Or.inl h⟩
    · exact ⟨rfl, Or.inr ⟨rfl, Classical.not_not.mp h⟩⟩
  · rintro ⟨rfl, h | ⟨rfl, rfl⟩⟩
    · exact Or.inl ⟨h, rfl⟩
    · exact Or.inr ⟨by simp, rfl, rfl, by simp⟩

/-- **The end of a line of code.** -/
theorem takes_eol_iff : eol.Takes ind pos t k ns ↔ ns = [] ∧ LineEnd t k := by
  unfold eol
  rw [takes_tail_iff]
  · simp only [takes_breakOrEnd_iff, LineEnd]
    constructor
    · rintro ⟨a, b, n, rfl, ha, hb, rfl, hn⟩
      exact ⟨rfl, a, b, n, rfl, ha, hb, hn⟩
    · rintro ⟨rfl, a, b, n, rfl, ha, hb, hn⟩
      exact ⟨a, b, n, rfl, ha, hb, rfl, hn⟩
  · intro pos n ns h
    rcases (takes_breakOrEnd_iff.mp h).2 with h | ⟨rfl, rfl⟩
    · exact .of_lineBreak h.1
    · intro x hx
      cases hx

/-! ### Lines without code -/

theorem refuses_blank_iff : blank.Refuses ind pos cs ↔ NoEmptyLine cs := by
  rw [refuses_iff rfl]
  simp only [takes_blank_iff]
  constructor
  · rintro h l k' rfl ⟨a, b, n, rfl, ha, hb, hn⟩
    by_cases hcr : n = ['\r'] ∧ k'.head? = some '\n'
    · obtain ⟨rfl, hk⟩ := hcr
      obtain ⟨u, rfl⟩ := List.head?_eq_some_iff.mp hk
      refine h (a ++ (b ++ ['\r', '\n'])) u [] (by simp) ⟨rfl, a, b, _, rfl, ha, hb, ?_⟩
      exact ⟨Or.inr (Or.inl rfl), by simp⟩
    · exact h _ k' [] rfl ⟨rfl, a, b, n, rfl, ha, hb, hn, fun hn' hk => hcr ⟨hn', hk⟩⟩
  · rintro h t k ns rfl ⟨-, a, b, n, rfl, ha, hb, hn⟩
    exact h _ k rfl ⟨a, b, n, rfl, ha, hb, hn.1⟩

end Pattern

theorem EmptyLine.of_lf {l t k : List Char} (hl : EmptyLine l) (h : '\n' :: t = l ++ k) :
    l = ['\n'] ∧ k = t := by
  obtain ⟨a, b, n, rfl, ha, hb, hn⟩ := hl
  cases a with
  | cons x a =>
    have hx := ha x (by simp)
    cases h
    cases hx
  | nil =>
    rcases hb with rfl | ⟨u, rfl, -⟩
    · rcases hn with rfl | rfl | rfl
      · cases h
        exact ⟨rfl, rfl⟩
      · cases h
      · cases h
    · cases h

theorem EmptyLines.of_lf {t : List Char} (h : EmptyLines ('\n' :: t)) : EmptyLines t := by
  generalize hs : '\n' :: t = s at h
  cases h with
  | nil => cases hs
  | cons hl ht =>
    obtain ⟨-, rfl⟩ := hl.of_lf hs
    exact ht

theorem NoEmptyLine.head_ne {k : List Char} (h : NoEmptyLine k) : k.head? ≠ some '\n' := by
  intro hk
  obtain ⟨u, rfl⟩ := List.head?_eq_some_iff.mp hk
  exact h ['\n'] u rfl ⟨[], [], ['\n'], rfl, .nil, Or.inl rfl, Or.inl rfl⟩

theorem EmptyLine.cases {l : List Char} (h : EmptyLine l) :
    ∃ a x u, l = a ++ x :: u ∧ Spaces a ∧ (x = '#' ∨ x = '\n' ∨ x = '\r') ∧
      ∃ y ∈ x :: u, y = '\n' ∨ y = '\r' := by
  obtain ⟨a, b, n, rfl, ha, hb, hn⟩ := h
  obtain ⟨y, v, rfl, hy⟩ := hn.cases
  rcases hb with rfl | ⟨u, rfl, -⟩
  · exact ⟨a, y, v, rfl, ha, Or.inr hy, y, by simp, hy⟩
  · exact ⟨a, '#', u ++ y :: v, rfl, ha, Or.inl rfl, y, by simp, hy⟩

/-- A line of code is not one without code. -/
theorem NoEmptyLine.of_solid {g w : List Char} (hg : Spaces g) (hw : Solid w) :
    NoEmptyLine (g ++ w) := by
  intro l k' heq hl
  obtain ⟨a, x, u, rfl, ha, hx, -⟩ := hl.cases
  have hstop : Stops .space (x :: u ++ k') := by
    intro y hy
    cases hy
    rcases hx with rfl | rfl | rfl <;> rfl
  rw [List.append_assoc] at heq
  obtain ⟨rfl, rfl⟩ := hw.stops_space.unique hstop hg ha heq
  obtain ⟨y, v, hy, hne⟩ := hw
  cases hy
  rcases hx with rfl | rfl | rfl <;> simp at hne

/-- The last line of a source has no line break. -/
theorem NoEmptyLine.of_lastLine {k : List Char} (hk : LastLine k) : NoEmptyLine k := by
  rintro l k' rfl hl
  obtain ⟨a, x, u, rfl, -, -, y, hy, hbreak⟩ := hl.cases
  obtain ⟨a', b', heq, ha, hb⟩ := hk
  have hmem : y ∈ a' ++ b' := by
    rw [← heq]
    simp only [List.mem_append]
    exact Or.inl (Or.inr hy)
  rcases List.mem_append.mp hmem with hmem | hmem
  · have := space_contains_iff.mp (ha y hmem)
    rcases hbreak with rfl | rfl <;> simp at this
  · rcases hb with rfl | ⟨v, rfl, hv⟩
    · cases hmem
    · rcases List.mem_cons.mp hmem with rfl | hmem
      · simp at hbreak
      · have := notLineEnd_contains_iff.mp (hv y hmem)
        rcases hbreak with rfl | rfl <;> simp at this

namespace Pattern

variable {ind : List (List Char)} {pos : Nat} {t k : List Char} {ns : List Node}

theorem repeats_blank (ht : EmptyLines t) (hk : NoEmptyLine k) : Repeats blank ind k pos t [] := by
  -- By the number of characters: a carriage return may take the line feed of the next line along.
  generalize hn : t.length = n
  induction n using Nat.strongRecOn generalizing pos t with
  | ind n ih =>
    cases ht with
    | nil => exact .done (refuses_blank_iff.mpr hk)
    | @cons l t hl ht =>
      obtain ⟨a, b, n', rfl, ha, hb, hbreak⟩ := hl
      obtain ⟨x, u, hxu, -⟩ := hbreak.cases
      by_cases hcr : n' = ['\r'] ∧ (t ++ k).head? = some '\n'
      · obtain ⟨rfl, hhead⟩ := hcr
        cases t with
        | nil => exact absurd hhead hk.head_ne
        | cons y t =>
          cases hhead
          have hsplit : a ++ (b ++ ['\r']) ++ '\n' :: t = a ++ (b ++ ['\r', '\n']) ++ t := by simp
          rw [hsplit]
          refine .more (m := []) (takes_blank_iff.mpr ⟨rfl, a, b, _, rfl, ha, hb, ?_⟩)
            (ih t.length ?_ ht.of_lf rfl)
          · exact ⟨Or.inr (Or.inl rfl), by simp⟩
          · simp at hn
            omega
      · refine .more (m := []) (takes_blank_iff.mpr ⟨rfl, a, b, n', rfl, ha, hb, hbreak, ?_⟩)
          (ih t.length ?_ ht rfl)
        · exact fun h₁ h₂ => hcr ⟨h₁, h₂⟩
        · subst hxu
          simp at hn
          omega

/-- **The lines without code before some text.** -/
theorem takes_blanks_iff :
    (star blank).Takes ind pos t k ns ↔ ns = [] ∧ EmptyLines t ∧ NoEmptyLine k := by
  rw [takes_star_iff (by rfl) (by rfl)]
  constructor
  · intro h
    induction h with
    | done h => exact ⟨rfl, .nil, refuses_blank_iff.mp h⟩
    | more h _ ih =>
      obtain ⟨rfl, a, b, n, rfl, ha, hb, hn⟩ := takes_blank_iff.mp h
      obtain ⟨rfl, ht, hk⟩ := ih
      exact ⟨rfl, .cons ⟨a, b, n, rfl, ha, hb, hn.1⟩ ht, hk⟩
  · rintro ⟨rfl, ht, hk⟩
    exact repeats_blank ht hk

end Pattern

end Offside
