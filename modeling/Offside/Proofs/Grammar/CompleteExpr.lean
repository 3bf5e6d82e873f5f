import Offside.Proofs.Syntax
import Offside.Proofs.Grammar.Soundness

/-!
# The grammar takes every expression

The text of an expression is taken by its rule, and the node is read as just that expression.  What
follows the text must not go on with it: there come blanks and then the end of the source or a
delimiter (`Delimited`).

* lists between parentheses: `takes_commaList`;
* **the text of an expression is taken**: `Expr.WrittenAt.takes`.
-/

namespace Offside

open Text Pattern

/-! ### What may follow an expression -/

/-- The characters that end an expression. -/
def delimiters : List Char := [',', ')', ':', '#', '\n', '\r']

/-- Blanks, and then the end of the source or a delimiter. -/
def Delimited (k : List Char) : Prop :=
  ∃ g r, k = g ++ r ∧ Spaces g ∧ ∀ x, r.head? = some x → x ∈ delimiters

theorem Delimited.head {k : List Char} (h : Delimited k) {x : Char} (hx : k.head? = some x) :
    x ∈ ' ' :: '\t' :: delimiters := by
  obtain ⟨g, r, rfl, hg, hr⟩ := h
  cases g with
  | nil => simp [hr x hx]
  | cons y g =>
    have hy := space_contains_iff.mp (hg y (by simp))
    cases hx
    rcases hy with rfl | rfl
    · decide
    · decide

theorem Delimited.stops_nameInner {k : List Char} (h : Delimited k) : Stops .nameInner k := by
  have hnone : (' ' :: '\t' :: delimiters).any CharClass.nameInner.contains = false := by decide
  intro x hx
  exact eq_false_of_any hnone (h.head hx)

theorem Delimited.numberEnd {k : List Char} (h : Delimited k) : NumberEnd k := by
  have hnone : (' ' :: '\t' :: delimiters).any isNumeral = false := by decide
  intro x hx
  exact eq_false_of_any hnone (h.head hx)

theorem Pattern.Stops.of_delimiters {K : CharClass} {k : List Char}
    (h : ∀ x, k.head? = some x → x ∈ delimiters)
    (hK : delimiters.any K.contains = false) : Stops K k := by
  intro x hx
  exact eq_false_of_any hK (h x hx)

theorem Delimited.of_cons {x : Char} {k : List Char} (h : x ∈ delimiters) : Delimited (x :: k) := by
  refine ⟨[], x :: k, rfl, .nil, fun y hy => ?_⟩
  cases hy
  exact h

theorem Delimited.spaces {a k : List Char} (ha : Spaces a) (h : Delimited k) :
    Delimited (a ++ k) := by
  obtain ⟨g, r, rfl, hg, hr⟩ := h
  exact ⟨a ++ g, r, by simp, ha.append hg, hr⟩

theorem Listed.delimited {α : Type} {R : Nat → List Char → α → Prop} {pos : Nat} {u k : List Char}
    {xs : List α} (h : Listed R false pos u xs) : Delimited (u ++ ([')'] ++ k)) := by
  cases h with
  | nil ha => exact .spaces ha (.of_cons (by decide))
  | comma ha _ =>
    rw [List.append_assoc]
    exact .spaces ha (.of_cons (by decide))
  | next ha _ _ _ =>
    rw [List.append_assoc]
    exact .spaces ha (.of_cons (by decide))

namespace Pattern

variable {ind : List (List Char)} {pos : Nat} {t k : List Char} {ns : List Node}

theorem takes_sp {a r : List Char} (ha : Spaces a) (hr : Stops .space r) :
    sp.Takes ind pos a r [] :=
  takes_sp_iff.mpr ⟨ha, hr, rfl⟩

theorem takes_char {x : Char} {r : List Char} : (char x).Takes ind pos [x] r [] :=
  takes_char_iff.mpr ⟨rfl, rfl⟩

theorem Stops.of_ne {K : CharClass} {x : Char} {k : List Char} (h : K.contains x = false) :
    Stops K (x :: k) := by
  intro y hy
  cases hy
  exact h

/-- Blanks are taken, and what must come after them is not there. -/
theorem refuses_after_sp {a r : List Char} {p : Pattern} (ha : Spaces a) (hr : Stops .space r)
    (hp : p.Refuses ind (pos + byteSize a) r) : (seq sp p).Refuses ind pos (a ++ r) :=
  (refuses_seq_iff (by rfl)).mpr (Or.inr ⟨a, r, [], rfl, takes_sp ha hr, hp⟩)

theorem refuses_seq_of_char {x : Char} {r : List Char} {p : Pattern} (hx : r.head? ≠ some x) :
    (seq (char x) p).Refuses ind pos r :=
  (refuses_seq_iff (by rfl)).mpr (Or.inl (refuses_char_iff.mpr hx))

/-- Blanks and then a certain character do not come before a delimiter. -/
theorem refuses_gap {x : Char} {p : Pattern} (hk : Delimited k) (hx : x ∉ delimiters) :
    (seq sp (seq (char x) p)).Refuses ind pos k := by
  obtain ⟨g, r, rfl, hg, hr⟩ := hk
  refine refuses_after_sp hg (.of_delimiters hr (by decide)) (refuses_seq_of_char fun h => ?_)
  exact hx (hr x h)

/-! ### Lists -/

section
variable {α : Type} {item : Pattern} {read : Node → Option α} {R : Nat → List Char → α → Prop}
  (hs : item.steady = true) (hsolid : ∀ {pos t x}, R pos t x → Solid t)
  (hclose : ∀ {pos}, item.Refuses ind pos ([')'] ++ k))
include hsolid hclose

/-- The items after the first one, and what is left for the comma and the blanks after them. -/
theorem repeats_commaItem {u : List Char} {xs : List α} (h : Listed R false pos u xs)
    (hitem : ∀ x ∈ xs, ∀ {pos t k}, R pos t x → Delimited k →
      ∃ m, item.Takes ind pos t k [m] ∧ read m = some x) :
    ∃ w v c ns, u = w ++ (v ++ c) ∧ Spaces c ∧ ns.mapM read = some xs ∧
      Repeats (commaItem item) ind (v ++ (c ++ ([')'] ++ k))) pos w ns ∧
      ∀ {pos}, lastComma.Takes ind pos v (c ++ ([')'] ++ k)) [] := by
  have hparen : Stops .space ([')'] ++ k) := .of_ne rfl
  generalize hstart : false = start at h
  induction h with
  | @nil _ pos a ha =>
    refine ⟨[], [], a, [], rfl, ha, rfl, .done ?_, fun {pos} =>
      takes_opt_iff.mpr (Or.inr ⟨?_, rfl, rfl⟩)⟩
    · rw [List.nil_append]
      exact refuses_after_sp ha hparen (refuses_seq_of_char (by simp))
    · exact refuses_after_sp ha hparen (refuses_char_iff.mpr (by simp))
  | @comma pos a c ha hc =>
    refine ⟨[], a ++ [','], c, [], by simp, hc, rfl, .done ?_, fun {pos} =>
      takes_opt_iff.mpr (Or.inl ?_)⟩
    · -- After the comma there is no item.
      rw [List.append_assoc]
      refine refuses_after_sp ha (.of_ne rfl) ((refuses_seq_iff (by rfl)).mpr (Or.inr ?_))
      exact ⟨[','], _, [], rfl, takes_char, refuses_after_sp hc hparen hclose⟩
    · exact Takes.seq (m := []) (takes_sp ha (.of_ne rfl)) takes_char
  | first => cases hstart
  | @next pos a b t u x xs ha hb hx hu ih =>
    obtain ⟨w, v, c, ns, rfl, hc, hns, hrep, hlast⟩ := ih (fun y hy => hitem y (by simp [hy])) hstart
    have hfollow := hu.delimited (k := k)
    simp only [List.append_assoc] at hfollow
    obtain ⟨m, hm, hread⟩ := hitem x (by simp) hx hfollow
    refine ⟨a ++ ([','] ++ (b ++ t)) ++ w, v, c, [m] ++ ns, by simp, hc,
      mapM_append_eq_some (mapM_singleton_eq_some hread) hns, ?_, hlast⟩
    refine .more ?_ (by simpa only [byteSize_append, ← Nat.add_assoc] using hrep)
    refine Takes.seq (m := []) (takes_sp ha (.of_ne rfl)) (Takes.seq (m := []) takes_char ?_)
    exact Takes.seq (m := []) (takes_sp hb (by simpa using (hsolid hx).append.stops_space)) hm

include hs in
/-- What stands between two parentheses, without the blanks at both ends. -/
theorem takes_commaList {u : List Char} {xs : List α} (h : Listed R true pos u xs)
    (hitem : ∀ x ∈ xs, ∀ {pos t k}, R pos t x → Delimited k →
      ∃ m, item.Takes ind pos t k [m] ∧ read m = some x) :
    ∃ a t c ns, u = a ++ (t ++ c) ∧ Spaces a ∧ Spaces c ∧ ns.mapM read = some xs ∧
      Stops .space (t ++ (c ++ ([')'] ++ k))) ∧
      (commaList item).Takes ind (pos + byteSize a) t (c ++ ([')'] ++ k)) ns := by
  have hparen : Stops .space ([')'] ++ k) := .of_ne rfl
  cases h with
  | nil ha =>
    refine ⟨u, [], [], [], by simp, ha, .nil, rfl, hparen, ?_⟩
    exact takes_opt_iff.mpr (Or.inr ⟨(refuses_seq_iff hs).mpr (Or.inl hclose), rfl, rfl⟩)
  | @first _ a t u x xs ha hx hu =>
    obtain ⟨w, v, c, ns, rfl, hc, hns, hrep, hlast⟩ :=
      repeats_commaItem hsolid hclose hu fun y hy => hitem y (by simp [hy])
    have hfollow := hu.delimited (k := k)
    simp only [List.append_assoc] at hfollow
    obtain ⟨m, hm, hread⟩ := hitem x (by simp) hx hfollow
    refine ⟨a, t ++ (w ++ v), c, [m] ++ (ns ++ []), by simp, ha, hc, ?_, ?_, ?_⟩
    · rw [List.append_nil]
      exact mapM_append_eq_some (mapM_singleton_eq_some hread) hns
    · rw [List.append_assoc]
      exact (hsolid hx).append.stops_space
    · refine takes_opt_iff.mpr (Or.inl (Takes.seq ?_ (Takes.seq ?_ hlast)))
      · simpa using hm
      · exact (takes_star_iff (by simp [all, steady, sp, char, hs]) (by rfl)).mpr hrep

end

/-! ### Expressions -/

variable {e : Expr} {m : Node}

/-- An expression does not start with just any character. -/
theorem refuses_lineStmt (h : ∀ x, t.head? = some x → startsExpr x = false) :
    (rule .lineStmt).Refuses ind pos t := by
  rw [refuses_iff rfl]
  rintro u k ns rfl hu
  obtain ⟨m, e, -, -, he⟩ := takes_lineStmt_sound hu
  obtain ⟨x, v, rfl, hx⟩ := he.head
  rw [h x rfl] at hx
  cases hx

theorem takes_lineStmt_of_call (h : (rule .call).Takes ind pos t k [m])
    (hm : Expr.ofNode? m = some e) :
    ∃ m, (rule .lineStmt).Takes ind pos t k [m] ∧ Expr.ofNode? m = some e := by
  have hline : Rule.lineStmt.pattern.Takes ind pos t k [m] := takes_alt_iff.mpr (Or.inl h)
  exact ⟨_, hline.rule, by simpa [Rule.node, Rule.isAtomic, Expr.ofNode?] using hm⟩

theorem takes_lineStmt_of_assignment (hcall : (rule .call).Refuses ind pos (t ++ k))
    (h : (rule .assignment).Takes ind pos t k [m]) (hm : Expr.ofNode? m = some e) :
    ∃ m, (rule .lineStmt).Takes ind pos t k [m] ∧ Expr.ofNode? m = some e := by
  have hline : Rule.lineStmt.pattern.Takes ind pos t k [m] :=
    takes_alt_iff.mpr (Or.inr ⟨hcall, takes_alt_iff.mpr (Or.inl h)⟩)
  exact ⟨_, hline.rule, by simpa [Rule.node, Rule.isAtomic, Expr.ofNode?] using hm⟩

theorem takes_lineStmt_of_atom (hcall : (rule .call).Refuses ind pos (t ++ k))
    (hassign : (rule .assignment).Refuses ind pos (t ++ k))
    (h : Rule.atom.pattern.Takes ind pos t k [m]) (hm : Expr.ofNode? m = some e) :
    ∃ m, (rule .lineStmt).Takes ind pos t k [m] ∧ Expr.ofNode? m = some e := by
  have hline : Rule.lineStmt.pattern.Takes ind pos t k [Rule.atom.node pos t [m]] :=
    takes_alt_iff.mpr (Or.inr ⟨hcall, takes_alt_iff.mpr (Or.inr ⟨hassign, h.rule⟩)⟩)
  exact ⟨_, hline.rule, by simpa [Rule.node, Rule.isAtomic, Expr.ofNode?] using hm⟩

/-- After a name that does not go on, a call or an assignment needs its own character. -/
theorem refuses_after_name {r : Rule} {p : Pattern} (hr : r.pattern = seq (rule .name) p)
    (ht : IsName t) (hk : Stops .nameInner k) (hp : p.Refuses ind (pos + byteSize t) k) :
    (rule r).Refuses ind pos (t ++ k) := by
  rw [refuses_rule_iff, hr]
  exact (refuses_seq_iff (by rfl)).mpr (Or.inr ⟨t, k, _, rfl, takes_name_iff.mpr ⟨ht, hk, rfl⟩, hp⟩)

theorem refuses_without_name {r : Rule} {p : Pattern} (hr : r.pattern = seq (rule .name) p)
    (ht : Stops nameHead t) : (rule r).Refuses ind pos t := by
  rw [refuses_rule_iff, hr]
  exact (refuses_seq_iff (by rfl)).mpr (Or.inl (refuses_name_of_stops ht))

/-- The characters that start a name, a string or a number are all different. -/
theorem stops_of_numberHead {x : Char} (hx : x ∈ numberHeads) : Stops nameHead (x :: t) := by
  have hnone : numberHeads.any nameHead.contains = false := by decide
  exact .of_ne (eq_false_of_any hnone hx)

theorem stops_of_quote (q : Quote) : Stops nameHead (q.mark :: t) := by
  cases q
  · exact .of_ne (by decide)
  · exact .of_ne (by decide)

theorem refuses_strings (h : ∀ q : Quote, t.head? ≠ some q.mark) :
    (rule .longString).Refuses ind pos t ∧ (rule .string).Refuses ind pos t := by
  rw [refuses_iff rfl, refuses_iff rfl]
  constructor
  · rintro u k ns rfl hu
    obtain ⟨q, body, hq, rfl, -, -⟩ := takes_longString_iff.mp hu
    obtain ⟨quote, rfl⟩ := hq.exists_mark
    exact h quote rfl
  · rintro u k ns rfl hu
    obtain ⟨q, body, hq, rfl, -, -⟩ := takes_string_iff.mp hu
    obtain ⟨quote, rfl⟩ := hq.exists_mark
    exact h quote rfl

theorem refuses_numbers (h : ∀ x ∈ numberHeads, t.head? ≠ some x) (κ : NumberKind) :
    (rule κ.rule).Refuses ind pos t := by
  rw [refuses_iff (by cases κ <;> rfl)]
  rintro u k ns rfl hu
  obtain ⟨hspell, -⟩ := takes_number_sound hu
  obtain ⟨x, v, rfl, hx⟩ := hspell.head
  exact h x hx rfl

theorem takes_atom_of_name (ht : IsName t) (hk : Stops .nameInner k) :
    Rule.atom.pattern.Takes ind pos t k [.leaf .name pos t] := by
  have htake : (rule .name).Takes ind pos t k [.leaf .name pos t] :=
    takes_name_iff.mpr ⟨ht, hk, rfl⟩
  obtain ⟨⟨x, u, rfl, hx, -⟩, -⟩ := ht
  have hquote : ∀ q : Quote, (x :: u ++ k).head? ≠ some q.mark := by
    intro q hq
    cases hq
    have := stops_of_quote (t := u) q _ rfl
    rw [hx] at this
    cases this
  have hnumber : ∀ y ∈ numberHeads, (x :: u ++ k).head? ≠ some y := by
    intro y hy h
    cases h
    have := stops_of_numberHead (t := u) hy _ rfl
    rw [hx] at this
    cases this
  obtain ⟨hlong, hshort⟩ : (rule .longString).Refuses ind pos (x :: u ++ k) ∧
    (rule .string).Refuses ind pos (x :: u ++ k) := refuses_strings hquote
  have hnum : ∀ κ : NumberKind, (rule κ.rule).Refuses ind pos (x :: u ++ k) :=
    refuses_numbers hnumber
  simp only [Rule.pattern, first, takes_alt_iff]
  exact Or.inr ⟨hlong, Or.inr ⟨hshort, Or.inr ⟨hnum .hex, Or.inr ⟨hnum .oct, Or.inr ⟨hnum .bin,
    Or.inr ⟨hnum .imag, Or.inr ⟨hnum .float, Or.inr ⟨hnum .dec, htake⟩⟩⟩⟩⟩⟩⟩⟩

theorem takes_atom_of_number {κ : NumberKind} (ht : κ.Spells t) (hk : NumberEnd k) :
    Rule.atom.pattern.Takes ind pos t k [.leaf κ.rule pos t] := by
  have htake : (rule κ.rule).Takes ind pos t k [.leaf κ.rule pos t] := takes_number ht hk
  have hbefore : ∀ κ' : NumberKind, κ'.place < κ.place → (rule κ'.rule).Refuses ind pos (t ++ k) :=
    fun κ' => refuses_number_of_before ht hk
  have hquote : ∀ q : Quote, (t ++ k).head? ≠ some q.mark := by
    obtain ⟨x, u, rfl, hx⟩ := ht.head
    intro q hq
    cases hq
    cases q <;> simp [Quote.mark, numberHeads] at hx
  obtain ⟨hlong, hshort⟩ : (rule .longString).Refuses ind pos (t ++ k) ∧
    (rule .string).Refuses ind pos (t ++ k) := refuses_strings hquote
  simp only [Rule.pattern, first, takes_alt_iff]
  refine Or.inr ⟨hlong, Or.inr ⟨hshort, ?_⟩⟩
  cases κ with
  | hex => exact Or.inl htake
  | oct => exact Or.inr ⟨hbefore .hex (by decide), Or.inl htake⟩
  | bin =>
    exact Or.inr ⟨hbefore .hex (by decide), Or.inr ⟨hbefore .oct (by decide), Or.inl htake⟩⟩
  | imag =>
    exact Or.inr ⟨hbefore .hex (by decide), Or.inr ⟨hbefore .oct (by decide),
      Or.inr ⟨hbefore .bin (by decide), Or.inl htake⟩⟩⟩
  | float =>
    exact Or.inr ⟨hbefore .hex (by decide), Or.inr ⟨hbefore .oct (by decide),
      Or.inr ⟨hbefore .bin (by decide), Or.inr ⟨hbefore .imag (by decide), Or.inl htake⟩⟩⟩⟩
  | dec =>
    exact Or.inr ⟨hbefore .hex (by decide), Or.inr ⟨hbefore .oct (by decide),
      Or.inr ⟨hbefore .bin (by decide), Or.inr ⟨hbefore .imag (by decide),
      Or.inr ⟨hbefore .float (by decide), Or.inl htake⟩⟩⟩⟩⟩

theorem isQuote_mark (quote : Quote) : IsQuote quote.mark := by
  cases quote
  · exact Or.inl rfl
  · exact Or.inr rfl

/-- A literal with single delimiters does not start with three of them. -/
theorem refuses_longString_of_short {quote : Quote} {body : List Char}
    (hbody : ShortBody quote.mark body) (hk : Delimited k) :
    (rule .longString).Refuses ind pos (shortText quote.mark body ++ k) := by
  rw [refuses_iff rfl]
  intro u k' ns heq hu
  obtain ⟨q, body', hq, rfl, -, -⟩ := takes_longString_iff.mp hu
  simp only [shortText, longText, List.cons_append, List.nil_append, List.cons.injEq,
    List.append_assoc] at heq
  obtain ⟨rfl, heq⟩ := heq
  cases hbody with
  | nil =>
    simp only [List.nil_append, List.cons.injEq, true_and] at heq
    have hhead := hk.head (x := quote.mark) (by rw [heq]; rfl)
    cases quote <;> simp [Quote.mark, delimiters] at hhead
  | escaped _ =>
    simp only [List.cons_append, List.cons.injEq] at heq
    cases quote <;> simp [Quote.mark] at heq
  | plain _ hx _ =>
    simp only [List.cons_append, List.cons.injEq] at heq
    obtain ⟨rfl, -⟩ := heq
    simp [CharClass.contains] at hx

theorem takes_atom_of_string {lit : StrLit} (h : lit.Enclosed) (hk : Delimited k) :
    ∃ m, Rule.atom.pattern.Takes ind pos lit.sourceForm.toList k [m] ∧
      Expr.ofNode? m = some (.string lit (.over pos lit.sourceForm.toList)) := by
  obtain ⟨content, quote, long⟩ := lit
  obtain ⟨body, rfl⟩ : ∃ body, content = String.ofList body := ⟨content.toList, by simp⟩
  unfold StrLit.Enclosed at h
  simp only [Rule.pattern, first, takes_alt_iff]
  cases long with
  | true =>
    simp only [if_true, String.toList_ofList] at h
    rw [StrLit.sourceForm_long]
    refine ⟨.leaf .longString pos (longText quote.mark body), Or.inl ?_, ?_⟩
    · exact takes_longString_iff.mpr ⟨_, body, isQuote_mark quote, rfl, h, rfl⟩
    · simp [Expr.ofNode?, Expr.ofLeaf?, StrLit.ofText_long, Span.over]
  | false =>
    simp only [Bool.false_eq_true, if_false, String.toList_ofList] at h
    rw [StrLit.sourceForm_short]
    refine ⟨.leaf .string pos (shortText quote.mark body),
      Or.inr ⟨refuses_longString_of_short h hk, Or.inl ?_⟩, ?_⟩
    · exact takes_string_iff.mpr ⟨_, body, isQuote_mark quote, rfl, h, rfl⟩
    · simp [Expr.ofNode?, Expr.ofLeaf?, StrLit.ofText_short, Span.over]

/-- A name is taken where it does not go on. -/
theorem takes_ident {x : Ident} (hx : x.WrittenAt pos t) (hk : Stops .nameInner k) :
    ∃ m, (rule .name).Takes ind pos t k [m] ∧ Ident.ofNode? m = some x := by
  obtain ⟨hname, rfl⟩ := hx
  exact ⟨_, takes_name_iff.mpr ⟨hname, hk, rfl⟩, rfl⟩

theorem stops_gap {a : List Char} {x : Char} (ha : Spaces a)
    (hx : CharClass.nameInner.contains x = false) : Stops .nameInner (a ++ ([x] ++ t)) := by
  cases a with
  | nil => exact .of_ne hx
  | cons y a =>
    rcases space_contains_iff.mp (ha y (by simp)) with rfl | rfl
    · exact .of_ne (by decide)
    · exact .of_ne (by decide)

theorem takes_call {f : Ident} {args : List Expr} {a u : List Char} (hf : f.WrittenAt pos t)
    (ha : Spaces a)
    (hu : Listed Expr.WrittenAt true (pos + byteSize t + byteSize a + byteSize ['(']) u args)
    (ih : ∀ e ∈ args, ∀ {pos t k}, e.WrittenAt pos t → Delimited k →
      ∃ m, (rule .lineStmt).Takes ind pos t k [m] ∧ Expr.ofNode? m = some e) :
    ∃ m, (rule .call).Takes ind pos (t ++ (a ++ (['('] ++ (u ++ [')'])))) k [m] ∧
      Expr.ofNode? m =
        some (.call f args (.over pos (t ++ (a ++ (['('] ++ (u ++ [')'])))))) := by
  have hclose : ∀ {pos}, (rule .lineStmt).Refuses ind pos ([')'] ++ k) :=
    refuses_lineStmt fun x hx => by cases hx; decide
  obtain ⟨b, v, c, ns, rfl, hb, hc, hns, hstop, hlist⟩ :=
    takes_commaList rfl Expr.WrittenAt.solid hclose hu ih
  obtain ⟨m, hm, hread⟩ : ∃ m, (rule .name).Takes ind pos t
      (a ++ (['('] ++ (b ++ (v ++ (c ++ ([')'] ++ k)))))) [m] ∧ Ident.ofNode? m = some f :=
    takes_ident hf (stops_gap ha (by decide))
  have hcall : Rule.call.pattern.Takes ind pos
      (t ++ (a ++ (['('] ++ (b ++ (v ++ (c ++ [')'])))))) k ([m] ++ ([] ++ ([] ++ ([] ++
        ([Rule.args.node (pos + byteSize t + byteSize a + byteSize ['('] + byteSize b) v ns] ++
          ([] ++ [])))))) := by
    refine Takes.seq (by simpa using hm) (Takes.seq (takes_sp ha (.of_ne rfl))
      (Takes.seq takes_char (Takes.seq (takes_sp hb ?_) (Takes.seq ?_
        (Takes.seq (takes_sp hc (.of_ne rfl)) takes_char)))))
    · simpa using hstop
    · refine Takes.rule (r := .args) ?_
      rw [List.append_assoc]
      exact hlist
  rw [← Expr.ofNodes?_eq_mapM] at hns
  simp only [List.append_assoc] at hcall ⊢
  refine ⟨_, hcall.rule, ?_⟩
  simp [Rule.node, Rule.isAtomic, Expr.ofNode?, hread, hns, Span.over]

theorem takes_assignment {x : Ident} {e : Expr} {a b u : List Char} (hx : x.WrittenAt pos t)
    (ha : Spaces a) (hb : Spaces b) (hu : Solid u)
    (ih : ∃ m, (rule .lineStmt).Takes ind
      (pos + byteSize t + byteSize a + byteSize ['='] + byteSize b) u k [m] ∧
        Expr.ofNode? m = some e) :
    ∃ m, (rule .assignment).Takes ind pos (t ++ (a ++ (['='] ++ (b ++ u)))) k [m] ∧
      Expr.ofNode? m = some (.assign x e (.over pos (t ++ (a ++ (['='] ++ (b ++ u)))))) := by
  obtain ⟨m', hm', hread'⟩ := ih
  obtain ⟨m, hm, hread⟩ : ∃ m, (rule .name).Takes ind pos t
      (a ++ (['='] ++ (b ++ (u ++ k)))) [m] ∧ Ident.ofNode? m = some x :=
    takes_ident hx (stops_gap ha (by decide))
  have hassign : Rule.assignment.pattern.Takes ind pos (t ++ (a ++ (['='] ++ (b ++ u)))) k
      ([m] ++ ([] ++ ([] ++ ([] ++ [m'])))) := by
    refine Takes.seq (by simpa using hm) (Takes.seq (takes_sp ha (.of_ne rfl))
      (Takes.seq takes_char (Takes.seq (takes_sp hb hu.append.stops_space) hm')))
  refine ⟨_, hassign.rule, ?_⟩
  simp [Rule.node, Rule.isAtomic, Expr.ofNode?, hread, hread', Span.over]

end Pattern

/-- **The text of an expression is taken** before blanks and a delimiter. -/
theorem Expr.WrittenAt.takes {pos : Nat} {t k : List Char} {e : Expr} (h : e.WrittenAt pos t)
    (ind : List (List Char)) (hk : Delimited k) :
    ∃ m, (rule .lineStmt).Takes ind pos t k [m] ∧ Expr.ofNode? m = some e := by
  induction e using Expr.induction generalizing pos t k with
  | call f args span ih =>
    cases h with
    | call hf ha hu =>
      obtain ⟨m, hm, hread⟩ := takes_call hf ha hu fun e he {pos t k} => ih e he
      exact takes_lineStmt_of_call hm hread
  | assign x e span ih =>
    cases h with
    | @assign _ _ _ t a b u hx ha hb he =>
      obtain ⟨m, hm, hread⟩ := takes_assignment hx ha hb he.solid (ih he hk)
      refine takes_lineStmt_of_assignment ?_ hm hread
      have hstop : Stops .nameInner (a ++ (['='] ++ (b ++ u) ++ k)) := by
        rw [List.append_assoc]
        exact stops_gap ha (by decide)
      rw [List.append_assoc, List.append_assoc]
      refine refuses_after_name rfl hx.1 hstop ?_
      exact refuses_after_sp ha (.of_ne rfl) (refuses_seq_of_char (by simp))
  | name x span =>
    cases h with
    | name hx =>
      obtain ⟨hname, rfl⟩ := hx
      refine takes_lineStmt_of_atom ?_ ?_ (takes_atom_of_name hname hk.stops_nameInner) rfl
      · exact refuses_after_name rfl hname hk.stops_nameInner (refuses_gap hk (by decide))
      · exact refuses_after_name rfl hname hk.stops_nameInner (refuses_gap hk (by decide))
  | string lit span =>
    cases h with
    | string hlit =>
      obtain ⟨m, hm, hread⟩ := takes_atom_of_string hlit hk
      obtain ⟨u, hu⟩ := lit.sourceForm_head
      refine takes_lineStmt_of_atom ?_ ?_ hm hread
      · rw [hu]
        exact refuses_without_name rfl (stops_of_quote lit.quote)
      · rw [hu]
        exact refuses_without_name rfl (stops_of_quote lit.quote)
  | number κ cs span =>
    cases h with
    | number hn =>
      refine takes_lineStmt_of_atom ?_ ?_ (takes_atom_of_number hn hk.numberEnd) ?_
      · obtain ⟨x, u, rfl, hx⟩ := hn.head
        exact refuses_without_name rfl (stops_of_numberHead hx)
      · obtain ⟨x, u, rfl, hx⟩ := hn.head
        exact refuses_without_name rfl (stops_of_numberHead hx)
      · cases κ <;> rfl

end Offside
