import Offside.Proofs.Grammar.Written

/-!
# The grammar takes only what is written

What a rule of the grammar takes is the text of an expression, a statement, a function or a program,
and its node is read as just that part with just those spans.  The proofs go by the number of
characters taken: a part is shorter than what it is a part of.

* `takes_lineStmt_sound`, `takes_stmt_sound`, `takes_definition_sound`, `takes_program_sound`.
-/

namespace Offside

open Text Pattern

theorem Expr.ofNodes?_eq_mapM (ns : List Node) : Expr.ofNodes? ns = ns.mapM Expr.ofNode? := by
  induction ns with
  | nil => simp [Expr.ofNodes?]
  | cons n ns ih =>
    rw [Expr.ofNodes?, ih, List.mapM_cons]

/-- Nodes that are read in order as some things. -/
theorem mapM_append_eq_some {α : Type} {f : Node → Option α} {ms ns : List Node} {xs ys : List α}
    (h₁ : ms.mapM f = some xs) (h₂ : ns.mapM f = some ys) :
    (ms ++ ns).mapM f = some (xs ++ ys) := by
  rw [List.mapM_append, h₁, h₂]
  rfl

theorem mapM_singleton_eq_some {α : Type} {f : Node → Option α} {n : Node} {x : α}
    (h : f n = some x) : [n].mapM f = some [x] := by
  rw [List.mapM_cons, h]
  rfl

namespace Pattern

variable {ind : List (List Char)} {pos : Nat} {t k : List Char} {ns : List Node}

/-! ### Names and lists -/

theorem takes_name_sound (h : (rule .name).Takes ind pos t k ns) :
    ∃ m x, ns = [m] ∧ Ident.ofNode? m = some x ∧ x.WrittenAt pos t := by
  obtain ⟨hname, -, rfl⟩ := takes_name_iff.mp h
  exact ⟨_, _, rfl, rfl, hname, rfl⟩

/-- An item of a list with the comma before it. -/
def commaItem (item : Pattern) : Pattern := all [sp, char ',', sp, item]

/-- A comma after the last item of a list. -/
def lastComma : Pattern := opt (seq sp (char ','))

theorem takes_lastComma_sound (h : lastComma.Takes ind pos t k ns) {α : Type}
    {R : Nat → List Char → α → Prop} :
    ns = [] ∧ ∀ pos c, Spaces c → Listed R false pos (t ++ c) [] := by
  rcases takes_opt_iff.mp h with h | ⟨-, rfl, rfl⟩
  · obtain ⟨a, _, _, _, rfl, rfl, h₁, h₂⟩ := (takes_seq_iff (by rfl)).mp h
    obtain ⟨ha, -, rfl⟩ := takes_sp_iff.mp h₁
    obtain ⟨rfl, rfl⟩ := takes_char_iff.mp h₂
    refine ⟨rfl, fun pos c hc => ?_⟩
    rw [List.append_assoc]
    exact .comma ha hc
  · exact ⟨rfl, fun pos c hc => .nil hc⟩

section
variable {α : Type} {item : Pattern} {read : Node → Option α} {R : Nat → List Char → α → Prop}
  {n : Nat} (hs : item.steady = true)
  (hitem : ∀ {pos : Nat} {t k : List Char} {ns : List Node}, t.length < n →
    item.Takes ind pos t k ns → ∃ m x, ns = [m] ∧ read m = some x ∧ R pos t x)
include hitem

theorem repeats_commaItem_sound {v : List Char} (h : Repeats (commaItem item) ind k pos t ns)
    (ht : t.length < n) (hv : ∀ pos, Listed R false pos v []) :
    ∃ xs, ns.mapM read = some xs ∧ Listed R false pos (t ++ v) xs := by
  induction h with
  | done _ => exact ⟨[], rfl, hv _⟩
  | @more pos w u ms ms' h _ ih =>
    obtain ⟨a, _, _, _, rfl, rfl, h₁, h₂⟩ := (takes_seq_iff (by rfl)).mp h
    obtain ⟨ha, -, rfl⟩ := takes_sp_iff.mp h₁
    obtain ⟨_, _, _, _, rfl, rfl, h₃, h₄⟩ := (takes_seq_iff (by rfl)).mp h₂
    obtain ⟨rfl, rfl⟩ := takes_char_iff.mp h₃
    obtain ⟨b, t, _, _, rfl, rfl, h₅, h₆⟩ := (takes_seq_iff (by rfl)).mp h₄
    obtain ⟨hb, -, rfl⟩ := takes_sp_iff.mp h₅
    simp only [List.length_append] at ht
    obtain ⟨m, x, rfl, hm, hx⟩ := hitem (by omega) h₆
    obtain ⟨xs, hms, hxs⟩ := ih (by omega)
    refine ⟨x :: xs, mapM_append_eq_some (mapM_singleton_eq_some hm) hms, ?_⟩
    simp only [byteSize_append, ← Nat.add_assoc] at hxs
    simp only [List.append_assoc]
    exact .next ha hb hx hxs

include hs in
/-- What stands between two parentheses is a list of items. -/
theorem takes_commaList_sound {a c : List Char}
    (h : (commaList item).Takes ind (pos + byteSize a) t k ns) (ht : t.length < n) (ha : Spaces a)
    (hc : Spaces c) :
    ∃ xs, ns.mapM read = some xs ∧ Listed R true pos (a ++ (t ++ c)) xs := by
  have hs' : (commaItem item).steady = true := by
    simp [commaItem, all, steady, sp, char, hs]
  change (opt (seq item (seq (star (commaItem item)) lastComma))).Takes _ _ _ _ _ at h
  rcases takes_opt_iff.mp h with h | ⟨-, rfl, rfl⟩
  · obtain ⟨t, _, _, _, rfl, rfl, h₁, h₂⟩ := (takes_seq_iff hs).mp h
    obtain ⟨u, v, _, _, rfl, rfl, h₃, h₄⟩ := (takes_seq_iff (p := star (commaItem item)) hs').mp h₂
    obtain ⟨rfl, hv⟩ := takes_lastComma_sound (R := R) h₄
    simp only [List.length_append] at ht
    obtain ⟨m, x, rfl, hm, hx⟩ := hitem (by omega) h₁
    rw [takes_star_iff hs' (by rfl)] at h₃
    obtain ⟨xs, hms, hxs⟩ := repeats_commaItem_sound hitem h₃ (by omega)
      fun pos => hv pos c hc
    refine ⟨x :: xs, ?_, ?_⟩
    · rw [List.append_nil]
      exact mapM_append_eq_some (mapM_singleton_eq_some hm) hms
    · simp only [List.append_assoc]
      exact .first ha hx hxs
  · exact ⟨[], rfl, .nil (ha.append hc)⟩

end

end Pattern

/-! ### String literals -/

/-- The delimiter that a character is. -/
theorem IsQuote.exists_mark {q : Char} (h : IsQuote q) : ∃ quote : Quote, q = quote.mark := by
  rcases h with rfl | rfl
  · exact ⟨.single, rfl⟩
  · exact ⟨.double, rfl⟩

theorem StrLit.sourceForm_long (quote : Quote) (body : List Char) :
    (StrLit.mk (String.ofList body) quote true).sourceForm.toList = longText quote.mark body := by
  simp [sourceForm, delimiter, longText, List.replicate]

theorem StrLit.sourceForm_short (quote : Quote) (body : List Char) :
    (StrLit.mk (String.ofList body) quote false).sourceForm.toList = shortText quote.mark body := by
  simp [sourceForm, delimiter, shortText]

theorem StrLit.ofText_long (quote : Quote) (body : List Char) :
    StrLit.ofText 3 (longText quote.mark body) = ⟨String.ofList body, quote, true⟩ := by
  cases quote <;> simp [ofText, longText, Quote.mark]

theorem StrLit.ofText_short (quote : Quote) (body : List Char) :
    StrLit.ofText 1 (shortText quote.mark body) = ⟨String.ofList body, quote, false⟩ := by
  cases quote <;> simp [ofText, shortText, Quote.mark]

namespace Pattern

variable {ind : List (List Char)} {pos : Nat} {t k : List Char} {ns : List Node}

/-- A literal with triple delimiters is read as what it encloses. -/
theorem takes_longString_sound (h : (rule .longString).Takes ind pos t k ns) :
    ∃ m e, ns = [m] ∧ Expr.ofNode? m = some e ∧ e.WrittenAt pos t := by
  obtain ⟨q, body, hq, rfl, hbody, rfl⟩ := takes_longString_iff.mp h
  obtain ⟨quote, rfl⟩ := hq.exists_mark
  refine ⟨_, _, rfl, rfl, ?_⟩
  rw [StrLit.ofText_long, ← StrLit.sourceForm_long]
  exact .string (by simpa [StrLit.Enclosed] using hbody)

/-- A literal with single delimiters is read as what it encloses. -/
theorem takes_string_sound (h : (rule .string).Takes ind pos t k ns) :
    ∃ m e, ns = [m] ∧ Expr.ofNode? m = some e ∧ e.WrittenAt pos t := by
  obtain ⟨q, body, hq, rfl, hbody, rfl⟩ := takes_string_iff.mp h
  obtain ⟨quote, rfl⟩ := hq.exists_mark
  refine ⟨_, _, rfl, rfl, ?_⟩
  rw [StrLit.ofText_short, ← StrLit.sourceForm_short]
  exact .string (by simpa [StrLit.Enclosed] using hbody)

theorem takes_number_read {κ : NumberKind} (h : (rule κ.rule).Takes ind pos t k ns) :
    ∃ m e, ns = [m] ∧ Expr.ofNode? m = some e ∧ e.WrittenAt pos t := by
  obtain ⟨ht, rfl⟩ := takes_number_sound h
  refine ⟨_, .number κ (String.ofList t) (.over pos t), rfl, ?_, .number ht⟩
  cases κ <;> rfl

/-! ### Expressions -/

theorem takes_atom_sound (h : (rule .atom).Takes ind pos t k ns) :
    ∃ m e, ns = [m] ∧ Expr.ofNode? m = some e ∧ e.WrittenAt pos t := by
  obtain ⟨inner, h₀, rfl⟩ := takes_rule_iff.mp h
  change (alt (rule .longString) (alt (rule .string) (alt (rule NumberKind.hex.rule)
    (alt (rule NumberKind.oct.rule) (alt (rule NumberKind.bin.rule) (alt (rule NumberKind.imag.rule)
    (alt (rule NumberKind.float.rule) (alt (rule NumberKind.dec.rule) (rule .name))))))))).Takes
    _ _ _ _ _ at h₀
  have hread : ∃ m e, inner = [m] ∧ Expr.ofNode? m = some e ∧ e.WrittenAt pos t := by
    simp only [takes_alt_iff] at h₀
    rcases h₀ with h₁ | ⟨-, h₁ | ⟨-, h₁ | ⟨-, h₁ | ⟨-, h₁ | ⟨-, h₁ | ⟨-, h₁ | ⟨-, h₁ | ⟨-, h₁⟩⟩⟩⟩⟩⟩⟩⟩
    · exact takes_longString_sound h₁
    · exact takes_string_sound h₁
    · exact takes_number_read h₁
    · exact takes_number_read h₁
    · exact takes_number_read h₁
    · exact takes_number_read h₁
    · exact takes_number_read h₁
    · exact takes_number_read h₁
    · obtain ⟨hname, -, rfl⟩ := takes_name_iff.mp h₁
      exact ⟨_, _, rfl, rfl, .name ⟨hname, rfl⟩⟩
  obtain ⟨m, e, rfl, hm, he⟩ := hread
  exact ⟨_, e, rfl, by simpa [Rule.node, Rule.isAtomic, Expr.ofNode?] using hm, he⟩

/-- A part of an expression is an expression, if it is shorter than `n`. -/
def LineStmtSound (n : Nat) (ind : List (List Char)) : Prop :=
  ∀ {pos : Nat} {t k : List Char} {ns : List Node}, t.length < n →
    (rule .lineStmt).Takes ind pos t k ns →
    ∃ m e, ns = [m] ∧ Expr.ofNode? m = some e ∧ e.WrittenAt pos t

theorem takes_call_sound (ih : LineStmtSound t.length ind)
    (h : (rule .call).Takes ind pos t k ns) :
    ∃ m e, ns = [m] ∧ Expr.ofNode? m = some e ∧ e.WrittenAt pos t := by
  obtain ⟨inner, h₀, rfl⟩ := takes_rule_iff.mp h
  obtain ⟨f, _, _, _, rfl, rfl, h₁, h₂⟩ := (takes_seq_iff (by rfl)).mp h₀
  obtain ⟨a, _, _, _, rfl, rfl, h₃, h₄⟩ := (takes_seq_iff (by rfl)).mp h₂
  obtain ⟨_, _, _, _, rfl, rfl, h₅, h₆⟩ := (takes_seq_iff (by rfl)).mp h₄
  obtain ⟨b, _, _, _, rfl, rfl, h₇, h₈⟩ := (takes_seq_iff (by rfl)).mp h₆
  obtain ⟨u, _, _, _, rfl, rfl, h₉, h₁₀⟩ := (takes_seq_iff (by rfl)).mp h₈
  obtain ⟨c, _, _, _, rfl, rfl, h₁₁, h₁₂⟩ := (takes_seq_iff (by rfl)).mp h₁₀
  obtain ⟨m, x, rfl, hm, hx⟩ := takes_name_sound h₁
  obtain ⟨ha, -, rfl⟩ := takes_sp_iff.mp h₃
  obtain ⟨rfl, rfl⟩ := takes_char_iff.mp h₅
  obtain ⟨hb, -, rfl⟩ := takes_sp_iff.mp h₇
  obtain ⟨args, h₁₃, rfl⟩ := takes_rule_iff.mp h₉
  obtain ⟨hc, -, rfl⟩ := takes_sp_iff.mp h₁₁
  obtain ⟨rfl, rfl⟩ := takes_char_iff.mp h₁₂
  simp only [List.length_append, List.length_singleton] at ih
  obtain ⟨es, hes, hlist⟩ := takes_commaList_sound rfl ih h₁₃ (by omega) hb hc
  rw [← Expr.ofNodes?_eq_mapM] at hes
  have hcall := Expr.WrittenAt.call hx ha hlist
  simp only [List.append_assoc] at hcall
  refine ⟨_, _, rfl, ?_, hcall⟩
  simp [Rule.node, Rule.isAtomic, Expr.ofNode?, hm, hes, Span.over]

theorem takes_assignment_sound (ih : LineStmtSound t.length ind)
    (h : (rule .assignment).Takes ind pos t k ns) :
    ∃ m e, ns = [m] ∧ Expr.ofNode? m = some e ∧ e.WrittenAt pos t := by
  obtain ⟨inner, h₀, rfl⟩ := takes_rule_iff.mp h
  obtain ⟨f, _, _, _, rfl, rfl, h₁, h₂⟩ := (takes_seq_iff (by rfl)).mp h₀
  obtain ⟨a, _, _, _, rfl, rfl, h₃, h₄⟩ := (takes_seq_iff (by rfl)).mp h₂
  obtain ⟨_, _, _, _, rfl, rfl, h₅, h₆⟩ := (takes_seq_iff (by rfl)).mp h₄
  obtain ⟨b, u, _, _, rfl, rfl, h₇, h₈⟩ := (takes_seq_iff (by rfl)).mp h₆
  obtain ⟨m, x, rfl, hm, hx⟩ := takes_name_sound h₁
  obtain ⟨ha, -, rfl⟩ := takes_sp_iff.mp h₃
  obtain ⟨rfl, rfl⟩ := takes_char_iff.mp h₅
  obtain ⟨hb, -, rfl⟩ := takes_sp_iff.mp h₇
  simp only [List.length_append, List.length_singleton] at ih
  obtain ⟨m', e, rfl, hm', he⟩ := ih (by omega) h₈
  refine ⟨_, _, rfl, ?_, .assign hx ha hb he⟩
  simp [Rule.node, Rule.isAtomic, Expr.ofNode?, hm, hm', Span.over]

/-- **An expression on a line or in a list.** -/
theorem takes_lineStmt_sound (h : (rule .lineStmt).Takes ind pos t k ns) :
    ∃ m e, ns = [m] ∧ Expr.ofNode? m = some e ∧ e.WrittenAt pos t := by
  generalize hn : t.length = n
  induction n using Nat.strongRecOn generalizing pos t k ns with
  | ind n ih =>
    have hpart : LineStmtSound t.length ind := by
      intro pos' t' k' ns' hlt h'
      exact ih t'.length (by omega) h' rfl
    obtain ⟨inner, h₀, rfl⟩ := takes_rule_iff.mp h
    change (alt (rule .call) (alt (rule .assignment) (rule .atom))).Takes _ _ _ _ _ at h₀
    have hread : ∃ m e, inner = [m] ∧ Expr.ofNode? m = some e ∧ e.WrittenAt pos t := by
      simp only [takes_alt_iff] at h₀
      rcases h₀ with h₁ | ⟨-, h₁ | ⟨-, h₁⟩⟩
      · exact takes_call_sound hpart h₁
      · exact takes_assignment_sound hpart h₁
      · exact takes_atom_sound h₁
    obtain ⟨m, e, rfl, hm, he⟩ := hread
    exact ⟨_, e, rfl, by simpa [Rule.node, Rule.isAtomic, Expr.ofNode?] using hm, he⟩

/-! ### Statements -/

/-- A part of a statement that is a statement is one, if it is shorter than `n`. -/
def StmtSound (n : Nat) : Prop :=
  ∀ {ind : List (List Char)} {pos : Nat} {t k : List Char} {ns : List Node}, t.length < n →
    (rule .stmt).Takes ind pos t k ns →
    ∃ m s, ns = [m] ∧ Stmt.ofNode? m = some s ∧ s.WrittenAt ind pos t k

theorem repeats_furtherLines_sound {n : Nat} (ih : StmtSound n) (ht : t.length < n)
    (h : Repeats (all [star blank, peekAll, rule .stmt]) ind k pos t ns) :
    ∃ ss, Stmt.ofNodes? ns = some ss ∧ Lines.WrittenAt ind pos t k ss := by
  induction h with
  | done _ => exact ⟨[], by rw [Stmt.ofNodes?], .nil⟩
  | @more pos w v ms ms' h _ ihv =>
    obtain ⟨b, _, _, _, rfl, rfl, h₁, h₂⟩ := (takes_seq_iff (by rfl)).mp h
    obtain ⟨_, u, _, _, rfl, rfl, h₃, h₄⟩ := (takes_seq_iff (by rfl)).mp h₂
    obtain ⟨rfl, hb, -⟩ := takes_blanks_iff.mp h₁
    obtain ⟨rfl, rfl⟩ := takes_peekAll_iff.mp h₃
    simp only [List.length_append] at ht
    obtain ⟨m, s, rfl, hm, hs⟩ := ih (by omega) h₄
    obtain ⟨ss, hms, hss⟩ := ihv (by omega)
    refine ⟨s :: ss, ?_, ?_⟩
    · simp [Stmt.ofNodes?, hm, hms]
    · simp only [byteSize_append, ← Nat.add_assoc] at hss
      simp only [List.append_assoc]
      exact .cons hb hs hss

theorem takes_body_sound {n : Nat} (ih : StmtSound n) (ht : t.length ≤ n)
    (h : (rule .body).Takes ind pos t k ns) :
    ∃ m b, ns = [m] ∧ Body.ofNode? m = some b ∧ b.WrittenAt ind pos t k := by
  obtain ⟨inner, h₀, rfl⟩ := takes_rule_iff.mp h
  obtain ⟨own, u, v, ms, ms', rfl, rfl, hne, hown, -, h₁, h₂⟩ := takes_body_iff.mp h₀
  have hpos := List.length_pos_iff.mpr hne
  simp only [List.length_append] at ht
  obtain ⟨m, s, rfl, hm, hs⟩ := ih (by omega) h₁
  have hlines := (takes_star_iff (by rfl) (by rfl)).mp h₂
  obtain ⟨ss, hms, hss⟩ := repeats_furtherLines_sound ih (by omega) hlines
  refine ⟨_, _, rfl, ?_, .mk hne hown hs hss⟩
  simp [Rule.node, Rule.isAtomic, Body.ofNode?, Stmt.ofNodes?, hm, hms, Span.over]

theorem takes_colon_sound (h : (opt (char ':')).Takes ind pos t k ns) :
    ns = [] ∧ (t = [] ∨ t = [':']) := by
  rcases takes_opt_iff.mp h with h | ⟨-, rfl, rfl⟩
  · obtain ⟨rfl, rfl⟩ := takes_char_iff.mp h
    exact ⟨rfl, Or.inr rfl⟩
  · exact ⟨rfl, Or.inl rfl⟩

theorem takes_block_sound {n : Nat} (ih : StmtSound n) (ht : t.length ≤ n)
    (h : block.Takes ind pos t k ns) :
    ∃ m b, ns = [m] ∧ Body.ofNode? m = some b ∧ Block.WrittenAt ind pos t k b := by
  obtain ⟨a, _, _, _, rfl, rfl, h₁, h₂⟩ := (takes_seq_iff (by rfl)).mp h
  obtain ⟨c, _, _, _, rfl, rfl, h₃, h₄⟩ := (takes_seq_iff (by rfl)).mp h₂
  obtain ⟨e, _, _, _, rfl, rfl, h₅, h₆⟩ := (takes_seq_iff (by rfl)).mp h₄
  obtain ⟨b, u, _, _, rfl, rfl, h₇, h₈⟩ := (takes_seq_iff (by rfl)).mp h₆
  obtain ⟨ha, -, rfl⟩ := takes_sp_iff.mp h₁
  obtain ⟨rfl, hc⟩ := takes_colon_sound h₃
  obtain ⟨rfl, he⟩ := takes_eol_iff.mp h₅
  obtain ⟨rfl, hb, -⟩ := takes_blanks_iff.mp h₇
  simp only [List.length_append] at ht
  obtain ⟨m, body, rfl, hm, hbody⟩ := takes_body_sound ih (by omega) h₈
  refine ⟨m, body, rfl, hm, ?_⟩
  have hhead : Header (a ++ (c ++ (e ++ b))) (u ++ k) :=
    ⟨a, c, e, b, rfl, ha, hc, by simpa only [List.append_assoc] using he, hb⟩
  have hblock : Block.WrittenAt ind pos (a ++ (c ++ (e ++ b)) ++ u) k body :=
    .mk hhead (by simpa only [byteSize_append, ← Nat.add_assoc] using hbody)
  simpa only [List.append_assoc] using hblock

theorem takes_doStmt_sound (ih : StmtSound t.length) (h : (rule .doStmt).Takes ind pos t k ns) :
    ∃ m s, ns = [m] ∧ Stmt.ofInner? m = some s ∧ s.WrittenAt ind pos t k := by
  obtain ⟨inner, h₀, rfl⟩ := takes_rule_iff.mp h
  obtain ⟨_, u, _, _, rfl, rfl, h₁, h₂⟩ := (takes_seq_iff (by rfl)).mp h₀
  obtain ⟨rfl, -, rfl⟩ := takes_word_iff.mp h₁
  obtain ⟨m, b, rfl, hm, hb⟩ := takes_block_sound ih (by simp; omega) h₂
  refine ⟨_, _, rfl, ?_, .block hb⟩
  simp [Rule.node, Rule.isAtomic, Stmt.ofInner?, hm, Span.over]

/-- A branch, whose nodes are those of its condition and its body. -/
theorem takes_branch_sound {n : Nat} {w : List Char} (ih : StmtSound n) (ht : t.length ≤ n)
    (h : (all [word w, sp, rule .lineStmt, block]).Takes ind pos t k ns) :
    ∃ m m' e b, ns = [m, m'] ∧ Expr.ofNode? m = some e ∧ Body.ofNode? m' = some b ∧
      Branch.WrittenAt w ind pos t k (.mk e b) := by
  obtain ⟨_, _, _, _, rfl, rfl, h₁, h₂⟩ := (takes_seq_iff (by rfl)).mp h
  obtain ⟨g, _, _, _, rfl, rfl, h₃, h₄⟩ := (takes_seq_iff (by rfl)).mp h₂
  obtain ⟨u, v, _, _, rfl, rfl, h₅, h₆⟩ := (takes_seq_iff (by rfl)).mp h₄
  obtain ⟨rfl, hstop, rfl⟩ := takes_word_iff.mp h₁
  obtain ⟨hg, -, rfl⟩ := takes_sp_iff.mp h₃
  obtain ⟨m, e, rfl, hm, he⟩ := takes_lineStmt_sound h₅
  simp only [List.length_append] at ht
  obtain ⟨m', b, rfl, hm', hb⟩ := takes_block_sound ih (by omega) h₆
  refine ⟨m, m', e, b, rfl, hm, hm', .mk hg ?_ he hb⟩
  -- The expression has a first character, so that what follows it does not matter.
  obtain ⟨x, u, rfl, -⟩ := he.head
  intro y hy
  refine hstop y ?_
  rw [← hy]
  cases g <;> rfl

theorem repeats_elif_sound {n : Nat} (ih : StmtSound n) (ht : t.length ≤ n)
    (h : Repeats (rule .elifStmt) ind k pos t ns) :
    ∃ brs, Branch.ofNodes? ns = some brs ∧ Elifs.WrittenAt ind pos t k brs := by
  induction h with
  | done _ => exact ⟨[], by rw [Branch.ofNodes?], .nil⟩
  | @more pos w v ms ms' h _ ihv =>
    obtain ⟨inner, h₀, rfl⟩ := takes_rule_iff.mp h
    obtain ⟨b, _, _, _, rfl, rfl, h₁, h₂⟩ := (takes_seq_iff (by rfl)).mp h₀
    obtain ⟨_, u, _, _, rfl, rfl, h₃, h₄⟩ := (takes_seq_iff (by rfl)).mp h₂
    obtain ⟨rfl, hb, -⟩ := takes_blanks_iff.mp h₁
    obtain ⟨rfl, rfl⟩ := takes_peekAll_iff.mp h₃
    simp only [List.length_append] at ht
    obtain ⟨m, m', e, body, rfl, hm, hm', hbr⟩ := takes_branch_sound ih (by omega) h₄
    obtain ⟨brs, hms, hbrs⟩ := ihv (by omega)
    refine ⟨.mk e body :: brs, ?_, ?_⟩
    · simp [Rule.node, Rule.isAtomic, Branch.ofNodes?, hm, hm', hms]
    · simp only [byteSize_append, ← Nat.add_assoc] at hbrs
      simp only [List.append_assoc]
      exact .cons hb hbr hbrs

theorem takes_elseStmt_sound {n : Nat} (ih : StmtSound n) (ht : t.length ≤ n)
    (h : Rule.elseStmt.pattern.Takes ind pos t k ns) :
    ∃ o, Body.ofOptional? ns = some o ∧ Else.WrittenAt ind pos t k o := by
  rcases takes_opt_iff.mp h with h | ⟨-, rfl, rfl⟩
  · obtain ⟨b, _, _, _, rfl, rfl, h₁, h₂⟩ := (takes_seq_iff (by rfl)).mp h
    obtain ⟨_, _, _, _, rfl, rfl, h₃, h₄⟩ := (takes_seq_iff (by rfl)).mp h₂
    obtain ⟨_, u, _, _, rfl, rfl, h₅, h₆⟩ := (takes_seq_iff (by rfl)).mp h₄
    obtain ⟨rfl, hb, -⟩ := takes_blanks_iff.mp h₁
    obtain ⟨rfl, rfl⟩ := takes_peekAll_iff.mp h₃
    obtain ⟨rfl, -, rfl⟩ := takes_word_iff.mp h₅
    simp only [List.length_append] at ht
    obtain ⟨m, body, rfl, hm, hbody⟩ := takes_block_sound ih (by omega) h₆
    exact ⟨some body, by simp [Body.ofOptional?, hm], .present hb hbody⟩
  · exact ⟨none, by rw [Body.ofOptional?], .absent⟩

theorem takes_ifStmt_sound (ih : StmtSound t.length) (h : (rule .ifStmt).Takes ind pos t k ns) :
    ∃ m s, ns = [m] ∧ Stmt.ofInner? m = some s ∧ s.WrittenAt ind pos t k := by
  obtain ⟨inner, h₀, rfl⟩ := takes_rule_iff.mp h
  change (all ([kwIf, sp, rule .lineStmt, block] ++ [rule .elifs, rule .elseStmt])).Takes _ _ _ _ _
    at h₀
  rw [takes_all_append_iff (by simp) (by simp)] at h₀
  obtain ⟨b, _, _, _, rfl, rfl, h₁, h₂⟩ := (takes_seq_iff (by rfl)).mp h₀
  obtain ⟨u, v, _, _, rfl, rfl, h₃, h₄⟩ := (takes_seq_iff (by rfl)).mp h₂
  obtain ⟨elifs, h₅, rfl⟩ := takes_rule_iff.mp h₃
  obtain ⟨otherwise, h₆, rfl⟩ := takes_rule_iff.mp h₄
  simp only [List.length_append] at ih
  obtain ⟨m, m', e, body, rfl, hm, hm', hbr⟩ := takes_branch_sound ih (by omega) h₁
  have hrepeats := (takes_star_iff (by rfl) (by rfl)).mp h₅
  obtain ⟨brs, hbrs, helifs⟩ := repeats_elif_sound ih (by omega) hrepeats
  obtain ⟨o, ho, helse⟩ := takes_elseStmt_sound ih (by omega) h₆
  rw [List.append_assoc] at hbr
  refine ⟨_, _, rfl, ?_, .cond hbr helifs helse⟩
  simp [Rule.node, Rule.isAtomic, Stmt.ofInner?, hm, hm', hbrs, ho, Span.over]

/-- **A statement.** -/
theorem takes_stmt_sound (h : (rule .stmt).Takes ind pos t k ns) :
    ∃ m s, ns = [m] ∧ Stmt.ofNode? m = some s ∧ s.WrittenAt ind pos t k := by
  generalize hn : t.length = n
  induction n using Nat.strongRecOn generalizing ind pos t k ns with
  | ind n ih =>
    have hpart : StmtSound t.length := by
      intro ind' pos' t' k' ns' hlt h'
      exact ih t'.length (by omega) h' rfl
    obtain ⟨inner, h₀, rfl⟩ := takes_rule_iff.mp h
    change (alt (rule .doStmt) (alt (rule .ifStmt) (seq (rule .lineStmt) eol))).Takes _ _ _ _ _
      at h₀
    have hread : ∃ m s, inner = [m] ∧ Stmt.ofInner? m = some s ∧ s.WrittenAt ind pos t k := by
      simp only [takes_alt_iff] at h₀
      rcases h₀ with h₁ | ⟨-, h₁ | ⟨-, h₁⟩⟩
      · exact takes_doStmt_sound hpart h₁
      · exact takes_ifStmt_sound hpart h₁
      · obtain ⟨u, v, ms, _, rfl, rfl, h₂, h₃⟩ := (takes_seq_iff (by rfl)).mp h₁
        obtain ⟨rfl, hv⟩ := takes_eol_iff.mp h₃
        obtain ⟨inner', -, rfl⟩ := takes_rule_iff.mp h₂
        obtain ⟨m, e, hms, hm, he⟩ := takes_lineStmt_sound h₂
        cases hms
        refine ⟨_, _, rfl, ?_, .line he hv⟩
        change Expr.ofNode? (.branch .lineStmt ⟨pos, pos + byteSize u⟩ inner') = some e at hm
        change Stmt.ofInner? (.branch .lineStmt ⟨pos, pos + byteSize u⟩ inner') = _
        simp [Stmt.ofInner?, hm, Span.over]
    obtain ⟨m, s, rfl, hm, hs⟩ := hread
    exact ⟨_, s, rfl, by simpa [Rule.node, Rule.isAtomic, Stmt.ofNode?] using hm, hs⟩

/-! ### Functions and programs -/

/-- **A function.** -/
theorem takes_definition_sound (h : (rule .definition).Takes ind pos t k ns) (hind : ind = []) :
    ∃ m f, ns = [m] ∧ FunDef.ofNode? m = some f ∧ f.WrittenAt pos t k := by
  subst hind
  obtain ⟨inner, h₀, rfl⟩ := takes_rule_iff.mp h
  obtain ⟨_, _, _, _, rfl, rfl, h₁, h₂⟩ := (takes_seq_iff (by rfl)).mp h₀
  obtain ⟨g, _, _, _, rfl, rfl, h₃, h₄⟩ := (takes_seq_iff (by rfl)).mp h₂
  obtain ⟨f, _, _, _, rfl, rfl, h₅, h₆⟩ := (takes_seq_iff (by rfl)).mp h₄
  obtain ⟨a, _, _, _, rfl, rfl, h₇, h₈⟩ := (takes_seq_iff (by rfl)).mp h₆
  obtain ⟨_, _, _, _, rfl, rfl, h₉, h₁₀⟩ := (takes_seq_iff (by rfl)).mp h₈
  obtain ⟨b, _, _, _, rfl, rfl, h₁₁, h₁₂⟩ := (takes_seq_iff (by rfl)).mp h₁₀
  obtain ⟨u, _, _, _, rfl, rfl, h₁₃, h₁₄⟩ := (takes_seq_iff (by rfl)).mp h₁₂
  obtain ⟨c, _, _, _, rfl, rfl, h₁₅, h₁₆⟩ := (takes_seq_iff (by rfl)).mp h₁₄
  obtain ⟨_, v, _, _, rfl, rfl, h₁₇, h₁₈⟩ := (takes_seq_iff (by rfl)).mp h₁₆
  obtain ⟨rfl, hstop, rfl⟩ := takes_word_iff.mp h₁
  obtain ⟨hg, -, rfl⟩ := takes_sp_iff.mp h₃
  obtain ⟨m, x, rfl, hm, hx⟩ := takes_name_sound h₅
  obtain ⟨ha, -, rfl⟩ := takes_sp_iff.mp h₇
  obtain ⟨rfl, rfl⟩ := takes_char_iff.mp h₉
  obtain ⟨hb, -, rfl⟩ := takes_sp_iff.mp h₁₁
  obtain ⟨params, h₁₉, rfl⟩ := takes_rule_iff.mp h₁₃
  obtain ⟨hc, -, rfl⟩ := takes_sp_iff.mp h₁₅
  obtain ⟨rfl, rfl⟩ := takes_char_iff.mp h₁₇
  obtain ⟨xs, hxs, hlist⟩ := takes_commaList_sound rfl (fun _ => takes_name_sound) h₁₉
    (Nat.lt_succ_self _) hb hc
  obtain ⟨m', body, rfl, hm', hbody⟩ := takes_block_sound (fun _ => takes_stmt_sound)
    (Nat.le_refl _) h₁₈
  have hg' : g ≠ [] := by
    rintro rfl
    obtain ⟨⟨⟨y, w, rfl, hy, -⟩, -⟩, -⟩ := hx
    have := hstop y rfl
    rw [nameInner_of_nameHead hy] at this
    cases this
  have hdef := FunDef.WrittenAt.mk hg' hg hx ha hlist
    (by simpa only [byteSize_append, ← Nat.add_assoc] using hbody)
  simp only [List.append_assoc] at hdef
  refine ⟨_, _, rfl, ?_, hdef⟩
  simp [Rule.node, Rule.isAtomic, FunDef.ofNode?, hm, hxs, hm', Span.over]

/-- The nodes of functions among some nodes, read in order. -/
def readFuns (ns : List Node) : Option (List FunDef) :=
  (ns.filter (·.rule ≠ .endOfInput)).mapM FunDef.ofNode?

theorem readFuns_append {ms ns : List Node} {fs gs : List FunDef} (h₁ : readFuns ms = some fs)
    (h₂ : readFuns ns = some gs) : readFuns (ms ++ ns) = some (fs ++ gs) := by
  unfold readFuns at *
  rw [List.filter_append]
  exact mapM_append_eq_some h₁ h₂

theorem ofNodes?_program {inner : List Node} {fs : List FunDef} (h : readFuns inner = some fs) :
    Program.ofNodes? [Rule.program.node pos t inner] = some ⟨fs, .over pos t⟩ := by
  unfold readFuns at h
  change Program.ofNode? (.branch .program ⟨pos, pos + byteSize t⟩ inner) = _
  rw [Program.ofNode?, h]
  rfl

/-- A function after lines without code. -/
def nextDefinition : Pattern := seq (star blank) (rule .definition)

theorem takes_nextDefinition_sound (h : nextDefinition.Takes [] pos t k ns) :
    ∃ b u f, t = b ++ u ∧ EmptyLines b ∧ f.WrittenAt (pos + byteSize b) u k ∧
      readFuns ns = some [f] := by
  obtain ⟨b, u, _, _, rfl, rfl, h₁, h₂⟩ := (takes_seq_iff (by rfl)).mp h
  obtain ⟨rfl, hb, -⟩ := takes_blanks_iff.mp h₁
  obtain ⟨inner, -, rfl⟩ := takes_rule_iff.mp h₂
  obtain ⟨m, f, hms, hm, hf⟩ := takes_definition_sound h₂ rfl
  cases hms
  refine ⟨b, u, f, rfl, hb, hf, ?_⟩
  exact mapM_singleton_eq_some hm

theorem repeats_definition_sound (h : Repeats nextDefinition [] k pos t ns) :
    ∃ fs, readFuns ns = some fs ∧ Defs.WrittenAt pos t k fs := by
  induction h with
  | done _ => exact ⟨[], rfl, .nil⟩
  | more h _ ih =>
    obtain ⟨b, u, f, rfl, hb, hf, hread⟩ := takes_nextDefinition_sound h
    obtain ⟨fs, hread', hfs⟩ := ih
    refine ⟨f :: fs, readFuns_append hread hread', ?_⟩
    rw [List.append_assoc]
    simp only [byteSize_append, ← Nat.add_assoc] at hfs
    exact .cons hb hf hfs

/-- **A program.** -/
theorem takes_program_sound (h : (rule .program).Takes [] 0 t k ns) :
    k = [] ∧ ∃ p, Program.ofNodes? ns = some p ∧ p.Written t := by
  obtain ⟨inner, h₀, rfl⟩ := takes_rule_iff.mp h
  change (seq (seq nextDefinition (star nextDefinition)) (seq (star blank) (seq sp (seq (opt comment)
    (rule .endOfInput))))).Takes _ _ _ _ _ at h₀
  obtain ⟨_, _, _, _, rfl, rfl, h₁, h₂⟩ := (takes_seq_iff (by rfl)).mp h₀
  obtain ⟨_, v, _, _, rfl, rfl, h₃, h₄⟩ := (takes_seq_iff (by rfl)).mp h₁
  obtain ⟨b, _, _, _, rfl, rfl, h₅, h₆⟩ := (takes_seq_iff (by rfl)).mp h₂
  obtain ⟨a, _, _, _, rfl, rfl, h₇, h₈⟩ := (takes_seq_iff (by rfl)).mp h₆
  obtain ⟨c, _, _, _, rfl, rfl, h₉, h₁₀⟩ := (takes_seq_iff (by rfl)).mp h₈
  obtain ⟨b', u, f, rfl, hb', hf, hread⟩ := takes_nextDefinition_sound h₃
  obtain ⟨fs, hread', hfs⟩ := repeats_definition_sound ((takes_star_iff (by rfl) (by rfl)).mp h₄)
  obtain ⟨rfl, hb, -⟩ := takes_blanks_iff.mp h₅
  obtain ⟨ha, -, rfl⟩ := takes_sp_iff.mp h₇
  obtain ⟨rfl, hc, -, -⟩ := takes_optComment_iff.mp h₉
  obtain ⟨rfl, rfl, rfl⟩ := takes_endOfInput_iff.mp h₁₀
  have hend : ∀ p, readFuns [.leaf .endOfInput p []] = some [] := fun _ => rfl
  have hfuns := fun p => readFuns_append hread (readFuns_append hread' (hend p))
  simp only [List.append_nil, List.append_assoc, byteSize_append, ← Nat.add_assoc] at hf hfs ⊢
  refine ⟨trivial, ⟨f :: fs, .over 0 (b' ++ (u ++ (v ++ (b ++ (a ++ c)))))⟩, ?_, ?_⟩
  · refine ofNodes?_program ?_
    simpa using hfuns _
  · refine ⟨b' ++ (u ++ v), b, a ++ c, by simp only [List.append_assoc], .cons hb' hf hfs,
      by simp, hb, ⟨a, c, rfl, ha, hc⟩, rfl⟩

/-- Matching at the start of a source takes a part of it. -/
theorem matchStart_eq_some_iff {p : Pattern} {cs : List Char} (hs : p.steady = true) :
    (∃ c, (p.matchStart cs).result = some (c, ns)) ↔ ∃ t k, cs = t ++ k ∧ p.Takes [] 0 t k ns := by
  rw [matchStart_eq]
  constructor
  · rintro ⟨c, h⟩
    obtain ⟨t, ht, -, htakes⟩ := takes_of_run hs h
    exact ⟨t, c.rest, ht, htakes⟩
  · rintro ⟨t, k, rfl, h⟩
    exact ⟨_, h⟩

end Pattern

namespace Program

/-- A source that is a program is taken by its rule, and one that is taken is a program. -/
theorem parse_eq_ok_iff {s : String} {p : Program} :
    parse s = .ok p ↔ s.toList.all isBlank = false ∧
      ∃ t k ns, s.toList = t ++ k ∧ (rule .program).Takes [] 0 t k ns ∧ ofNodes? ns = some p := by
  unfold parse Pattern.parse
  cases hblank : s.toList.all isBlank with
  | true => simp [hblank]
  | false =>
    simp only [hblank, Bool.false_eq_true, if_false, true_and]
    cases hres : ((rule .program).matchStart s.toList).result with
    | none =>
      simp only [reduceCtorEq, false_iff]
      rintro ⟨t, k, ns, ht, h, -⟩
      obtain ⟨c, hc⟩ := (matchStart_eq_some_iff rfl).mpr ⟨t, k, ht, h⟩
      rw [hres] at hc
      cases hc
    | some x =>
      obtain ⟨c, ns⟩ := x
      have hsplit := (matchStart_eq_some_iff (p := rule .program) rfl).mp ⟨c, hres⟩
      simp only
      constructor
      · intro h
        obtain ⟨t, k, ht, htakes⟩ := hsplit
        refine ⟨t, k, ns, ht, htakes, ?_⟩
        cases hp : ofNodes? ns with
        | none => rw [hp] at h; cases h
        | some q => rw [hp] at h; cases h; rfl
      · rintro ⟨t, k, ns', ht, htakes, hp⟩
        obtain ⟨t', k', ht', htakes'⟩ := hsplit
        obtain ⟨-, -, rfl⟩ := htakes'.unique htakes (by rw [← ht, ← ht'])
        rw [hp]

/-- What a source parses to, taken from a computed option. -/
theorem parse_eq_ok_of_toOption {s : String} {p : Program} (h : (parse s).toOption = some p) :
    parse s = .ok p := by
  cases hparse : parse s with
  | error e =>
    rw [hparse] at h
    cases h
  | ok q =>
    rw [hparse] at h
    cases h
    rfl

/-- **A source that parses is written as the program that it is parsed to.** -/
theorem written_of_parse {s : String} {p : Program} (h : parse s = .ok p) : p.Written s.toList := by
  obtain ⟨-, t, k, ns, ht, htakes, hp⟩ := parse_eq_ok_iff.mp h
  obtain ⟨rfl, q, hq, hw⟩ := takes_program_sound htakes
  rw [hp] at hq
  cases hq
  rw [ht, List.append_nil]
  exact hw

/-- **The tree of a source is always that of a program.** -/
theorem parse_ne_malformedTree (s : String) : parse s ≠ .error .malformedTree := by
  unfold parse Pattern.parse
  dsimp only
  split
  · simp
  · cases hres : ((rule .program).matchStart s.toList).result with
    | none => simp
    | some x =>
      obtain ⟨c, ns⟩ := x
      obtain ⟨t, k, -, htakes⟩ := (matchStart_eq_some_iff (p := rule .program) rfl).mp ⟨c, hres⟩
      obtain ⟨-, p, hp, -⟩ := takes_program_sound htakes
      simp [hp]

end Program

end Offside
