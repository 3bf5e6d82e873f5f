import Offside.Proofs.Grammar.Takes

/-!
# The laws of taking and refusing

Laws for what the kinds of patterns take and what they refuse.  The laws are equivalences: read from
left to right they say what a match was made of, and from right to left how to make one.

A repetition takes a chain of items (`Repeats`) that ends where the item is refused.
-/

namespace Offside.Pattern

open Outcome Text

variable {p q : Pattern} {ind : List (List Char)} {pos : Nat} {t k cs : List Char} {ns : List Node}
  {K : CharClass} {r : Rule}

/-! ### Characters -/

theorem ofCursor?_eq_some_iff {o : Option Cursor} {d : Cursor} :
    (ofCursor? o).result = some (d, ns) ↔ o = some d ∧ ns = [] := by
  cases o with
  | none => simp [ofCursor?, mismatch]
  | some e => simp [ofCursor?, reached, eq_comm]

theorem ofCursor?_eq_none_iff {o : Option Cursor} : (ofCursor? o).result = none ↔ o = none := by
  cases o <;> simp [ofCursor?, mismatch, reached]

theorem eat?_takes_iff {x : List Char} :
    (Cursor.mk (t ++ k) pos ind).eat? x = some ⟨k, pos + byteSize t, ind⟩ ↔ t = x := by
  rw [Cursor.eat?_eq_some_iff]
  constructor
  · rintro ⟨rest, hrest, hd⟩
    simp only [Cursor.move, Cursor.mk.injEq] at hd
    obtain ⟨rfl, -, -⟩ := hd
    exact List.append_cancel_right hrest
  · rintro rfl
    exact ⟨k, rfl, rfl⟩

theorem eat?_refuses_iff {x : List Char} :
    (Cursor.mk cs pos ind).eat? x = none ↔ ¬ x <+: cs := by
  rw [Option.eq_none_iff_forall_not_mem]
  constructor
  · rintro h ⟨rest, rfl⟩
    exact h _ (Cursor.eat?_eq_some_iff.mpr ⟨rest, rfl, rfl⟩)
  · intro h d hd
    obtain ⟨rest, hrest, -⟩ := Cursor.eat?_eq_some_iff.mp hd
    exact h ⟨rest, hrest.symm⟩

theorem takes_text_iff {x : List Char} : (text x).Takes ind pos t k ns ↔ t = x ∧ ns = [] := by
  unfold Takes
  rw [run, ofCursor?_eq_some_iff, eat?_takes_iff]

theorem refuses_text_iff {x : List Char} : (text x).Refuses ind pos cs ↔ ¬ x <+: cs := by
  unfold Refuses
  rw [run, ofCursor?_eq_none_iff, eat?_refuses_iff]

theorem takes_char_iff {x : Char} : (char x).Takes ind pos t k ns ↔ t = [x] ∧ ns = [] :=
  takes_text_iff

theorem refuses_char_iff {x : Char} : (char x).Refuses ind pos cs ↔ cs.head? ≠ some x := by
  unfold char
  rw [refuses_text_iff]
  cases cs <;> simp [List.cons_prefix_cons, eq_comm]

theorem takes_empty_iff : empty.Takes ind pos t k ns ↔ t = [] ∧ ns = [] :=
  takes_text_iff

theorem takes_one_iff :
    (one K).Takes ind pos t k ns ↔ ∃ x, t = [x] ∧ K.contains x = true ∧ ns = [] := by
  unfold Takes
  rw [run, ofCursor?_eq_some_iff, Cursor.eatOne?_eq_some_iff]
  constructor
  · rintro ⟨⟨x, rest, hrest, hx, hd⟩, rfl⟩
    simp only [Cursor.move, Cursor.mk.injEq] at hd
    obtain ⟨rfl, -, -⟩ := hd
    refine ⟨x, ?_, hx, rfl⟩
    rw [← List.singleton_append] at hrest
    exact List.append_cancel_right hrest
  · rintro ⟨x, rfl, hx, rfl⟩
    exact ⟨⟨x, k, rfl, hx, rfl⟩, rfl⟩

theorem refuses_one_iff : (one K).Refuses ind pos cs ↔ Stops K cs := by
  unfold Refuses Stops
  rw [run, ofCursor?_eq_none_iff, Cursor.eatOne?]
  cases cs with
  | nil => simp
  | cons x xs => simp

theorem takes_many_iff :
    (many K).Takes ind pos t k ns ↔ (∀ x ∈ t, K.contains x = true) ∧ Stops K k ∧ ns = [] := by
  unfold Takes
  simp only [run, reached, Cursor.eatMany, Cursor.move, Option.some.injEq, Prod.mk.injEq,
    Cursor.mk.injEq]
  constructor
  · rintro ⟨⟨hk, -, -⟩, rfl⟩
    have ht : (t ++ k).takeWhile K.contains = t := by
      have h := List.takeWhile_append_dropWhile (p := K.contains) (l := t ++ k)
      rw [hk] at h
      exact List.append_cancel_right h
    refine ⟨fun x hx => ?_, fun x hx => ?_, rfl⟩
    · rw [← ht] at hx
      exact List.all_eq_true.mp List.all_takeWhile x hx
    · rw [← hk] at hx
      have h := List.head?_dropWhile_not K.contains (t ++ k)
      rw [hx] at h
      exact h
  · rintro ⟨hall, hstop, rfl⟩
    have hk : k.takeWhile K.contains = [] ∧ k.dropWhile K.contains = k := by
      cases k with
      | nil => exact ⟨rfl, rfl⟩
      | cons x xs =>
        have hx := hstop x rfl
        exact ⟨by simp [hx], by simp [hx]⟩
    rw [List.takeWhile_append_of_pos hall, List.dropWhile_append_of_pos hall, hk.1, hk.2,
      List.append_nil]
    simp

/-- The longest part of a text of characters of a class is the only one. -/
theorem Stops.unique {a a' k' : List Char} (hk : Stops K k) (hk' : Stops K k')
    (ha : ∀ x ∈ a, K.contains x = true) (ha' : ∀ x ∈ a', K.contains x = true)
    (h : a ++ k = a' ++ k') : a = a' ∧ k = k' := by
  have h₁ : (many K).Takes [] 0 a k [] := takes_many_iff.mpr ⟨ha, hk, rfl⟩
  have h₂ : (many K).Takes [] 0 a' k' [] := takes_many_iff.mpr ⟨ha', hk', rfl⟩
  obtain ⟨rfl, rfl, -⟩ := h₁.unique h₂ h
  exact ⟨rfl, rfl⟩

theorem not_refuses_many : ¬ (many K).Refuses ind pos cs := by
  unfold Refuses
  simp [run, reached]

theorem takes_stop_iff : stop.Takes ind pos t k ns ↔ t = [] ∧ k = [] ∧ ns = [] := by
  unfold Takes
  rw [run]
  cases t with
  | nil =>
    cases k with
    | nil => simp [reached, eq_comm]
    | cons x xs => simp [mismatch]
  | cons x xs => simp [mismatch]

theorem refuses_stop_iff : stop.Refuses ind pos cs ↔ cs ≠ [] := by
  unfold Refuses
  rw [run]
  cases cs with
  | nil => simp [reached]
  | cons x xs => simp [mismatch]

theorem takes_peekAll_iff : peekAll.Takes ind pos t k ns ↔ t = ind.flatten ∧ ns = [] := by
  unfold Takes
  rw [run, ofCursor?_eq_some_iff, eat?_takes_iff]

theorem refuses_peekAll_iff : peekAll.Refuses ind pos cs ↔ ¬ ind.flatten <+: cs := by
  unfold Refuses
  rw [run, ofCursor?_eq_none_iff, eat?_refuses_iff]

/-! ### One after the other, and one or the other -/

theorem Takes.seq {a b : List Char} {m n : List Node} (hp : p.Takes ind pos a (b ++ k) m)
    (hq : q.Takes ind (pos + byteSize a) b k n) :
    (Pattern.seq p q).Takes ind pos (a ++ b) k (m ++ n) := by
  unfold Takes at *
  rw [run, andThen_eq_some_iff]
  refine ⟨_, m, n, by rw [List.append_assoc]; exact hp, ?_, rfl⟩
  rw [byteSize_append, ← Nat.add_assoc]
  exact hq

theorem andThen_assoc (o : Outcome) (f g : Cursor → Outcome) :
    (o.andThen f).andThen g = o.andThen fun c => (f c).andThen g := by
  unfold andThen
  cases ho : o.result with
  | none => simp [ho]
  | some x =>
    obtain ⟨c, ms⟩ := x
    cases hf : (f c).result with
    | none => simp [hf]
    | some y =>
      obtain ⟨d, ns⟩ := y
      cases hg : (g d).result with
      | none => simp [hf, hg]
      | some z => simp [hf, hg]

/-- A sequence may be cut into two. -/
theorem run_all_append (call : Rule → Cursor → Outcome) {ps qs : List Pattern} (hp : ps ≠ [])
    (hq : qs ≠ []) (c : Cursor) :
    (all (ps ++ qs)).run call c = (seq (all ps) (all qs)).run call c := by
  obtain ⟨q, qs, rfl⟩ := List.exists_cons_of_ne_nil hq
  induction ps generalizing c with
  | nil => exact absurd rfl hp
  | cons p ps ih =>
    cases ps with
    | nil => rfl
    | cons p' ps =>
      have hrest := fun d => ih (by simp) d
      change (p.run call c).andThen ((all (p' :: ps ++ q :: qs)).run call) =
        ((p.run call c).andThen ((all (p' :: ps)).run call)).andThen ((all (q :: qs)).run call)
      rw [andThen_assoc, funext hrest]
      rfl

theorem takes_all_append_iff {ps qs : List Pattern} (hp : ps ≠ []) (hq : qs ≠ []) :
    (all (ps ++ qs)).Takes ind pos t k ns ↔ (seq (all ps) (all qs)).Takes ind pos t k ns := by
  unfold Takes
  rw [run_all_append _ hp hq]

theorem takes_seq_iff (hp : p.steady = true) :
    (seq p q).Takes ind pos t k ns ↔ ∃ a b ms ms', t = a ++ b ∧ ns = ms ++ ms' ∧
      p.Takes ind pos a (b ++ k) ms ∧ q.Takes ind (pos + byteSize a) b k ms' := by
  constructor
  · intro h
    unfold Takes at h
    rw [run, andThen_eq_some_iff] at h
    obtain ⟨d, ms, ms', h₁, h₂, rfl⟩ := h
    obtain ⟨a, ha, hd, htakes⟩ := takes_of_run hp h₁
    obtain ⟨b, hb, hpos, -⟩ := run_advances Rule.outcome_advances q d _ _ h₂
    rw [hd] at h₂ hpos
    rw [hb] at ha htakes h₂
    dsimp only at ha hpos htakes
    have ht : t = a ++ b := by
      rw [← List.append_assoc] at ha
      exact List.append_cancel_right ha
    refine ⟨a, b, ms, ms', ht, rfl, htakes, ?_⟩
    unfold Takes
    rw [h₂, hpos]
  · rintro ⟨a, b, ms, ms', rfl, rfl, h₁, h₂⟩
    exact h₁.seq h₂

theorem refuses_seq_iff (hp : p.steady = true) :
    (seq p q).Refuses ind pos cs ↔ p.Refuses ind pos cs ∨
      ∃ a b ms, cs = a ++ b ∧ p.Takes ind pos a b ms ∧ q.Refuses ind (pos + byteSize a) b := by
  unfold Refuses
  rw [run, andThen_eq_none_iff]
  refine or_congr_right ?_
  constructor
  · rintro ⟨d, ms, h₁, h₂⟩
    obtain ⟨a, ha, hd, htakes⟩ := takes_of_run hp h₁
    rw [hd] at h₂
    exact ⟨a, d.rest, ms, ha, htakes, h₂⟩
  · rintro ⟨a, b, ms, rfl, h₁, h₂⟩
    exact ⟨_, ms, h₁, h₂⟩

theorem takes_alt_iff :
    (alt p q).Takes ind pos t k ns ↔
      p.Takes ind pos t k ns ∨ p.Refuses ind pos (t ++ k) ∧ q.Takes ind pos t k ns := by
  unfold Takes Refuses
  rw [run, orElse_eq_some_iff]

theorem refuses_alt_iff :
    (alt p q).Refuses ind pos cs ↔ p.Refuses ind pos cs ∧ q.Refuses ind pos cs := by
  unfold Refuses
  rw [run, orElse_eq_none_iff]

theorem takes_opt_iff :
    (opt p).Takes ind pos t k ns ↔
      p.Takes ind pos t k ns ∨ p.Refuses ind pos k ∧ t = [] ∧ ns = [] := by
  unfold opt
  rw [takes_alt_iff, takes_empty_iff]
  refine or_congr_right ⟨?_, ?_⟩
  · rintro ⟨h, rfl, rfl⟩
    exact ⟨h, rfl, rfl⟩
  · rintro ⟨h, rfl, rfl⟩
    exact ⟨h, rfl, rfl⟩

/-! ### Looking ahead -/

theorem takes_ahead_iff :
    (ahead p).Takes ind pos t k ns ↔ t = [] ∧ ns = [] ∧ ¬ p.Refuses ind pos k := by
  unfold Takes Refuses
  simp only [run, Option.map_eq_some_iff, Prod.mk.injEq, Cursor.mk.injEq]
  constructor
  · rintro ⟨x, hx, ⟨ht, -, -⟩, rfl⟩
    have ht : t = [] := List.append_left_eq_self.mp ht
    subst ht
    rw [List.nil_append] at hx
    refine ⟨rfl, rfl, fun h => ?_⟩
    rw [hx] at h
    cases h
  · rintro ⟨rfl, rfl, h⟩
    obtain ⟨x, hx⟩ := Option.ne_none_iff_exists'.mp h
    exact ⟨x, hx, by simp, rfl⟩

theorem takes_notAhead_iff :
    (notAhead p).Takes ind pos t k ns ↔ t = [] ∧ ns = [] ∧ p.Refuses ind pos k := by
  unfold Takes Refuses
  rw [run]
  cases h : (p.run Rule.outcome ⟨t ++ k, pos, ind⟩).result with
  | none =>
    simp only [Option.isSome_none, Bool.false_eq_true, if_false, reached, Option.some.injEq,
      Prod.mk.injEq, Cursor.mk.injEq]
    constructor
    · rintro ⟨⟨ht, -, -⟩, rfl⟩
      have ht : t = [] := List.append_left_eq_self.mp ht
      subst ht
      exact ⟨rfl, rfl, h⟩
    · rintro ⟨rfl, rfl, -⟩
      simp
  | some x =>
    simp only [Option.isSome_some, if_true, mismatch, reduceCtorEq, false_iff]
    rintro ⟨rfl, -, hr⟩
    rw [List.nil_append, hr] at h
    cases h

theorem refuses_notAhead_iff : (notAhead p).Refuses ind pos cs ↔ ¬ p.Refuses ind pos cs := by
  unfold Refuses
  rw [run]
  cases h : (p.run Rule.outcome ⟨cs, pos, ind⟩).result with
  | none => simp [reached]
  | some x => simp [mismatch]

/-! ### Rules -/

theorem takes_rule_iff :
    (rule r).Takes ind pos t k ns ↔
      ∃ inner, r.pattern.Takes ind pos t k inner ∧ ns = [r.node pos t inner] := by
  have htext : (Cursor.mk (t ++ k) pos ind).textTo ⟨k, pos + byteSize t, ind⟩ = t := by
    simp [Cursor.textTo]
  unfold Takes
  rw [run, Rule.outcome_eq, Rule.close]
  cases h : (r.pattern.run Rule.outcome ⟨t ++ k, pos, ind⟩).result with
  | none => simp
  | some x =>
    obtain ⟨d, inner⟩ := x
    by_cases ha : r.isAtomic = true
    · simp only [ha, if_true, Option.some.injEq, Prod.mk.injEq, Rule.node]
      constructor
      · rintro ⟨rfl, rfl⟩
        exact ⟨inner, ⟨rfl, rfl⟩, by rw [htext]⟩
      · rintro ⟨_, ⟨rfl, rfl⟩, rfl⟩
        exact ⟨rfl, by rw [htext]⟩
    · simp only [ha, Bool.false_eq_true, if_false, Option.some.injEq, Prod.mk.injEq, Rule.node]
      constructor
      · rintro ⟨rfl, rfl⟩
        exact ⟨inner, ⟨rfl, rfl⟩, rfl⟩
      · rintro ⟨_, ⟨rfl, rfl⟩, rfl⟩
        exact ⟨rfl, rfl⟩

theorem Takes.rule {inner : List Node} (h : r.pattern.Takes ind pos t k inner) :
    (Pattern.rule r).Takes ind pos t k [r.node pos t inner] :=
  takes_rule_iff.mpr ⟨inner, h, rfl⟩

theorem refuses_rule_iff : (rule r).Refuses ind pos cs ↔ r.pattern.Refuses ind pos cs := by
  unfold Refuses
  rw [run, Rule.outcome_eq, Rule.close]
  cases h : (r.pattern.run Rule.outcome ⟨cs, pos, ind⟩).result with
  | none => simp
  | some x =>
    obtain ⟨d, inner⟩ := x
    by_cases ha : r.isAtomic = true
    · simp [ha]
    · simp [ha]

/-! ### Repetitions -/

/-- Before `t ++ k`, items of the pattern make up `t` one after the other, and none follows. -/
inductive Repeats (p : Pattern) (ind : List (List Char)) (k : List Char) :
    Nat → List Char → List Node → Prop
  | done {pos : Nat} : p.Refuses ind pos k → Repeats p ind k pos [] []
  | more {pos : Nat} {a b : List Char} {m n : List Node} : p.Takes ind pos a (b ++ k) m →
      Repeats p ind k (pos + byteSize a) b n → Repeats p ind k pos (a ++ b) (m ++ n)

/-- A pattern that cannot match nothing takes something. -/
theorem Takes.ne_nil (h : p.Takes ind pos t k ns) (hn : p.nullable = false) : t ≠ [] := by
  rintro rfl
  have hlt := (run_reads Rule.outcome_reads p _ _ _ h).2 (by rw [hn]; rfl)
  simp at hlt

theorem iterate_ne_none {step : Cursor → Outcome} (n : Nat) (c : Cursor) :
    (iterate step n c).result ≠ none := by
  cases n with
  | zero => simp [iterate, reached]
  | succ n =>
    rw [iterate, Ne, orElse_eq_none_iff]
    rintro ⟨-, h⟩
    cases h

theorem iterate_takes_iff (hs : p.steady = true) (hn : p.nullable = false) (n : Nat)
    (hlen : (t ++ k).length < n) :
    (iterate (p.run Rule.outcome) n ⟨t ++ k, pos, ind⟩).result =
        some (⟨k, pos + byteSize t, ind⟩, ns) ↔ Repeats p ind k pos t ns := by
  induction n generalizing pos t ns with
  | zero => omega
  | succ n ih =>
    rw [iterate, orElse_eq_some_iff, andThen_eq_some_iff, andThen_eq_none_iff]
    constructor
    · rintro (⟨d, ms, ms', h₁, h₂, rfl⟩ | ⟨h₁ | ⟨d, ms, -, h₂⟩, h₃⟩)
      · obtain ⟨a, ha, hd, htakes⟩ := takes_of_run hs h₁
        have hne := htakes.ne_nil hn
        obtain ⟨b, hb, hpos, -⟩ := Advances.iterate
          (fun c => run_advances Rule.outcome_advances p c) n d _ _ h₂
        rw [hd] at h₂ hpos
        rw [hb] at ha htakes h₂
        dsimp only at ha hpos htakes h₂
        have ht : t = a ++ b := by
          rw [← List.append_assoc] at ha
          exact List.append_cancel_right ha
        subst ht
        have hshort : (b ++ k).length < n := by
          have := List.length_pos_iff.mpr hne
          simp only [List.length_append] at hlen ⊢
          omega
        refine .more htakes ((ih hshort).mp ?_)
        rw [h₂, hpos]
      · simp only [reached, Option.some.injEq, Prod.mk.injEq, Cursor.mk.injEq] at h₃
        obtain ⟨⟨ht, -, -⟩, rfl⟩ := h₃
        have ht : t = [] := List.append_left_eq_self.mp ht
        subst ht
        exact .done h₁
      · exact absurd h₂ (iterate_ne_none n d)
    · rintro (h | ⟨h₁, h₂⟩)
      · exact Or.inr ⟨Or.inl h, rfl⟩
      · rename_i a b ms ms'
        have hne := h₁.ne_nil hn
        have hshort : (b ++ k).length < n := by
          have := List.length_pos_iff.mpr hne
          simp only [List.length_append] at hlen ⊢
          omega
        refine Or.inl ⟨_, ms, ms', by rw [List.append_assoc]; exact h₁, ?_, rfl⟩
        rw [byteSize_append, ← Nat.add_assoc]
        exact (ih hshort).mpr h₂

/-- **A repetition takes a chain of items** that ends where the item is refused. -/
theorem takes_star_iff (hs : p.steady = true) (hn : p.nullable = false) :
    (star p).Takes ind pos t k ns ↔ Repeats p ind k pos t ns :=
  iterate_takes_iff hs hn _ (Nat.lt_succ_self _)

/-! ### Bodies -/

theorem takes_indent_iff :
    indent.Takes ind pos t k ns ↔
      t ≠ [] ∧ (∀ x ∈ t, CharClass.space.contains x = true) ∧ Stops .space k ∧ ns = [] := by
  unfold indent many1
  rw [takes_seq_iff (by rfl)]
  simp only [takes_one_iff, takes_many_iff]
  constructor
  · rintro ⟨_, b, _, _, rfl, rfl, ⟨x, rfl, hx, rfl⟩, hb, hk, rfl⟩
    refine ⟨by simp, fun y hy => ?_, hk, rfl⟩
    rcases List.mem_append.mp hy with hy | hy
    · rw [List.mem_singleton.mp hy]
      exact hx
    · exact hb y hy
  · rintro ⟨hne, hall, hk, rfl⟩
    obtain ⟨x, b, rfl⟩ := List.exists_cons_of_ne_nil hne
    exact ⟨[x], b, [], [], rfl, rfl, ⟨x, rfl, hall x (by simp), rfl⟩,
      fun y hy => hall y (by simp [hy]), hk, rfl⟩

/-- The text that a match took, remembered. -/
theorem push_textTo (t rest : List Char) (pos : Nat) (ind : List (List Char)) :
    (Cursor.mk rest (pos + byteSize t) ind).push
        ((Cursor.mk (t ++ rest) pos ind).textTo ⟨rest, pos + byteSize t, ind⟩) =
      ⟨rest, pos + byteSize t, t :: ind⟩ := by
  simp [Cursor.push, Cursor.textTo]

/-- **A text is remembered** for what comes next, and forgotten at the end of that. -/
theorem takes_push_iff {qs : List Pattern} (hqs : qs ≠ []) (hp : p.steady = true)
    (hq : (all qs).steady = true) :
    (seq (push p) (all (qs ++ [drop]))).Takes ind pos t k ns ↔
      ∃ a b ms ms', t = a ++ b ∧ ns = ms ++ ms' ∧ p.Takes ind pos a (b ++ k) ms ∧
        (all qs).Takes (a :: ind) (pos + byteSize a) b k ms' := by
  have hrun : ∀ c, (all (qs ++ [drop])).run Rule.outcome c =
      (seq (all qs) drop).run Rule.outcome c := run_all_append _ hqs (by simp)
  unfold Takes
  simp only [run, andThen_eq_some_iff, Option.map_eq_some_iff, hrun]
  constructor
  · rintro ⟨_, _, _, ⟨⟨d, ms⟩, h₁, heq⟩, ⟨e, ms', _, h₂, h₃, rfl⟩, rfl⟩
    cases heq
    obtain ⟨a, ha, hd, htakes⟩ := takes_of_run hp h₁
    dsimp only at ha hd htakes
    rw [ha, hd, push_textTo] at h₂
    obtain ⟨b, hb, he, hinner⟩ := takes_of_run hq h₂
    rw [he] at h₃
    obtain ⟨hdrop, rfl⟩ := ofCursor?_eq_some_iff.mp h₃
    simp only [Cursor.drop?, Option.some.injEq, Cursor.mk.injEq] at hdrop
    obtain ⟨hk, -, -⟩ := hdrop
    dsimp only at hb hinner
    rw [hk] at hb hinner
    rw [hb] at ha htakes
    rw [← List.append_assoc] at ha
    exact ⟨a, b, ms, ms', List.append_cancel_right ha, by simp, htakes, hinner⟩
  · rintro ⟨a, b, ms, ms', rfl, rfl, h₁, h₂⟩
    refine ⟨_, ms, ms', ⟨_, by rw [List.append_assoc]; exact h₁, rfl⟩, ?_, rfl⟩
    dsimp only
    rw [List.append_assoc, push_textTo]
    refine ⟨_, ms', [], h₂, ?_, by simp⟩
    simp [ofCursor?, Cursor.drop?, reached, Nat.add_assoc]

/-- What follows the first statement of a body: further lines of the same indentation. -/
def furtherLines : Pattern := star (all [star blank, peekAll, rule .stmt])

/-- **A body** takes the remembered indentations and its own, which it remembers for its statements
only. -/
theorem takes_body_iff :
    Rule.body.pattern.Takes ind pos t k ns ↔
      ∃ own u v ms ms', t = ind.flatten ++ (own ++ (u ++ v)) ∧ ns = ms ++ ms' ∧ own ≠ [] ∧
        (∀ x ∈ own, CharClass.space.contains x = true) ∧ Stops .space (u ++ v ++ k) ∧
        (rule .stmt).Takes (own :: ind) (pos + byteSize ind.flatten + byteSize own) u (v ++ k) ms ∧
        furtherLines.Takes (own :: ind)
          (pos + byteSize ind.flatten + byteSize own + byteSize u) v k ms' := by
  change (seq peekAll (seq (push indent) (all ([rule .stmt, furtherLines] ++ [drop])))).Takes
    ind pos t k ns ↔ _
  rw [takes_seq_iff (by rfl)]
  simp only [takes_peekAll_iff]
  constructor
  · rintro ⟨_, _, _, _, rfl, rfl, ⟨rfl, rfl⟩, h⟩
    obtain ⟨own, _, _, _, rfl, hns, hindent, hlines⟩ :=
      (takes_push_iff (by simp) (by rfl) (by rfl)).mp h
    obtain ⟨hne, hall, hstop, rfl⟩ := takes_indent_iff.mp hindent
    obtain ⟨u, v, ms, ms', rfl, rfl, hstmt, hmore⟩ := (takes_seq_iff (by rfl)).mp hlines
    exact ⟨own, u, v, ms, ms', rfl, by simpa using hns, hne, hall, hstop, hstmt, hmore⟩
  · rintro ⟨own, u, v, ms, ms', rfl, rfl, hne, hall, hstop, hstmt, hmore⟩
    refine ⟨ind.flatten, own ++ (u ++ v), [], ms ++ ms', rfl, rfl, ⟨rfl, rfl⟩, ?_⟩
    refine (takes_push_iff (by simp) (by rfl) (by rfl)).mpr
      ⟨own, u ++ v, [], ms ++ ms', rfl, rfl, ?_, ?_⟩
    · exact takes_indent_iff.mpr ⟨hne, hall, hstop, rfl⟩
    · exact (takes_seq_iff (by rfl)).mpr ⟨u, v, ms, ms', rfl, rfl, hstmt, hmore⟩

end Offside.Pattern
