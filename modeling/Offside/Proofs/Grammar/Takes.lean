import Offside.Grammar.Allowance

/-!
# What a pattern takes

Started before a text, a pattern either *takes* a part of it, and leaves nodes and the rest behind,
or *refuses* it.  Both are stated on plain texts, so that the laws of the two notions are those of a
calculus on texts: every kind of pattern has one law for what it takes and one for what it refuses.

* where a match ends: `Pattern.run_advances`, `Rule.outcome_advances`;
* a pattern without stack operations takes a part of the text or refuses it:
  `Pattern.takes_or_refuses`;
* a pattern takes only one part of a text: `Pattern.Takes.unique`.
-/

namespace Offside

open Text

/-! ### Where a match ends -/

/-- A match ends after a part of what was to be read, and may have to keep the remembered
indentations. -/
def Outcome.Advances (keeps : Bool) (c : Cursor) (o : Outcome) : Prop :=
  ∀ d ns, o.result = some (d, ns) →
    ∃ t, c.rest = t ++ d.rest ∧ d.pos = c.pos + byteSize t ∧ (keeps = true → d.indents = c.indents)

namespace Outcome

theorem andThen_eq_some_iff {o : Outcome} {f : Cursor → Outcome} {e : Cursor} {ns : List Node} :
    (o.andThen f).result = some (e, ns) ↔
      ∃ d ms ms', o.result = some (d, ms) ∧ (f d).result = some (e, ms') ∧ ns = ms ++ ms' := by
  unfold andThen
  split
  · next h => simp [h]
  · next d ms h =>
    simp only [h, Option.map_eq_some_iff, Option.some.injEq, Prod.mk.injEq]
    constructor
    · rintro ⟨⟨e', ms'⟩, he, hee, rfl⟩
      exact ⟨d, ms, ms', ⟨rfl, rfl⟩, by rw [he, ← hee], rfl⟩
    · rintro ⟨d', ms'', ms', ⟨rfl, rfl⟩, he, rfl⟩
      exact ⟨(e, ms'), he, rfl, rfl⟩

theorem andThen_eq_none_iff {o : Outcome} {f : Cursor → Outcome} :
    (o.andThen f).result = none ↔
      o.result = none ∨ ∃ d ms, o.result = some (d, ms) ∧ (f d).result = none := by
  unfold andThen
  split
  · next h => simp [h]
  · next d ms h => simp [h]

theorem orElse_eq_some_iff {o : Outcome} {f : Unit → Outcome} {x : Cursor × List Node} :
    (o.orElse f).result = some x ↔
      o.result = some x ∨ o.result = none ∧ (f ()).result = some x := by
  unfold orElse
  split
  · next h => simp [h]
  · next h => simp [h]

theorem orElse_eq_none_iff {o : Outcome} {f : Unit → Outcome} :
    (o.orElse f).result = none ↔ o.result = none ∧ (f ()).result = none := by
  unfold orElse
  split
  · next h => simp [h]
  · next h => simp [h]

theorem Advances.weaken {a b : Bool} {c : Cursor} {o : Outcome} (h : o.Advances a c)
    (hab : b = true → a = true) : o.Advances b c := by
  intro d ns hd
  obtain ⟨t, ht, hp, hi⟩ := h d ns hd
  exact ⟨t, ht, hp, fun hb => hi (hab hb)⟩

theorem Advances.andThen {a b : Bool} {c : Cursor} {o : Outcome} {f : Cursor → Outcome}
    (h : o.Advances a c) (hf : ∀ d, (f d).Advances b d) : (o.andThen f).Advances (a && b) c := by
  intro e ns he
  obtain ⟨d, ms, ms', hd, he', -⟩ := andThen_eq_some_iff.mp he
  obtain ⟨t, ht, hp, hi⟩ := h d ms hd
  obtain ⟨u, hu, hq, hj⟩ := hf d e ms' he'
  refine ⟨t ++ u, ?_, ?_, fun hab => ?_⟩
  · rw [ht, hu, List.append_assoc]
  · rw [hq, hp, byteSize_append, Nat.add_assoc]
  · obtain ⟨ha, hb⟩ := Bool.and_eq_true_iff.mp hab
    rw [hj hb, hi ha]

theorem Advances.orElse {a : Bool} {c : Cursor} {o : Outcome} {f : Unit → Outcome}
    (h : o.Advances a c) (hf : (f ()).Advances a c) : (o.orElse f).Advances a c := by
  intro d ns hd
  rcases orElse_eq_some_iff.mp hd with h1 | ⟨-, h2⟩
  · exact h d ns h1
  · exact hf d ns h2

theorem advances_reached (a : Bool) (c : Cursor) : (reached c).Advances a c := by
  intro d ns h
  cases h
  exact ⟨[], rfl, rfl, fun _ => rfl⟩

theorem advances_move (a : Bool) {c : Cursor} {t k : List Char} (h : c.rest = t ++ k) :
    (reached (c.move t k)).Advances a c := by
  intro d ns hd
  cases hd
  exact ⟨t, h, rfl, fun _ => rfl⟩

theorem advances_eat? (a : Bool) (c : Cursor) (cs : List Char) :
    (ofCursor? (c.eat? cs)).Advances a c := by
  intro d ns hd
  cases he : c.eat? cs with
  | none => rw [he] at hd; cases hd
  | some e =>
    rw [he] at hd
    cases hd
    obtain ⟨k, hk, rfl⟩ := Cursor.eat?_eq_some_iff.mp he
    exact ⟨cs, hk, rfl, fun _ => rfl⟩

theorem Advances.iterate {a : Bool} {step : Cursor → Outcome} (h : ∀ d, (step d).Advances a d)
    (n : Nat) (c : Cursor) : (iterate step n c).Advances a c := by
  induction n generalizing c with
  | zero => exact advances_reached a c
  | succ n ih =>
    refine Advances.orElse ?_ (advances_reached a c)
    exact ((h c).andThen ih).weaken fun ha => by rw [ha]; rfl

end Outcome

theorem Cursor.eatOne?_eq_some_iff {c d : Cursor} {K : CharClass} :
    c.eatOne? K = some d ↔ ∃ x k, c.rest = x :: k ∧ K.contains x = true ∧ d = c.move [x] k := by
  unfold Cursor.eatOne?
  cases hr : c.rest with
  | nil => simp
  | cons x k =>
    by_cases hx : K.contains x = true
    · simp only [hx, if_true, Option.some.injEq, List.cons.injEq]
      constructor
      · rintro rfl
        exact ⟨x, k, ⟨rfl, rfl⟩, hx, rfl⟩
      · rintro ⟨y, l, ⟨rfl, rfl⟩, -, rfl⟩
        rfl
    · simp only [hx, Bool.false_eq_true, if_false, reduceCtorEq, List.cons.injEq, false_iff]
      rintro ⟨y, l, ⟨rfl, rfl⟩, hy, -⟩
      exact hx hy

namespace Pattern

open Outcome

/-- Does the pattern leave the remembered indentations as they are? -/
def steady : Pattern → Bool
  | push _ | drop => false
  | seq p q | alt p q => p.steady && q.steady
  | star p => p.steady
  | _ => true

/-- **A match ends after a part of what was to be read,** and keeps the remembered indentations if
no part of the pattern touches them. -/
theorem run_advances {call : Rule → Cursor → Outcome} (hcall : ∀ r c, (call r c).Advances true c)
    (p : Pattern) (c : Cursor) : (p.run call c).Advances p.steady c := by
  induction p generalizing c with
  | text cs => exact advances_eat? _ c cs
  | one K =>
    intro d ns hd
    cases he : c.eatOne? K with
    | none => rw [run, he] at hd; cases hd
    | some e =>
      rw [run, he] at hd
      cases hd
      obtain ⟨x, k, hk, -, rfl⟩ := Cursor.eatOne?_eq_some_iff.mp he
      exact ⟨[x], hk, rfl, fun _ => rfl⟩
  | many K => exact advances_move _ List.takeWhile_append_dropWhile.symm
  | stop =>
    intro d ns hd
    rw [run] at hd
    split at hd
    · exact advances_reached _ c d ns hd
    · cases hd
  | seq p q ihp ihq => exact (ihp c).andThen ihq
  | alt p q ihp ihq =>
    refine Advances.orElse ((ihp c).weaken fun h => ?_) ((ihq c).weaken fun h => ?_)
    · exact (Bool.and_eq_true_iff.mp h).1
    · exact (Bool.and_eq_true_iff.mp h).2
  | star p ih => exact Advances.iterate ih _ c
  | ahead p ih =>
    intro d ns hd
    simp only [run, Option.map_eq_some_iff] at hd
    obtain ⟨-, -, heq⟩ := hd
    cases heq
    exact ⟨[], rfl, rfl, fun _ => rfl⟩
  | notAhead p ih =>
    intro d ns hd
    rw [run] at hd
    split at hd
    · cases hd
    · exact advances_reached _ c d ns hd
  | rule r => exact hcall r c
  | push p ih =>
    intro d ns hd
    simp only [run, Option.map_eq_some_iff] at hd
    obtain ⟨⟨e, ms⟩, he, heq⟩ := hd
    cases heq
    obtain ⟨t, ht, hp, -⟩ := ih c e ms he
    exact ⟨t, ht, hp, fun h => by cases h⟩
  | peekAll => exact advances_eat? _ c _
  | drop =>
    intro d ns hd
    simp only [run] at hd
    cases he : c.drop? with
    | none => rw [he] at hd; cases hd
    | some e =>
      rw [he] at hd
      cases hd
      unfold Cursor.drop? at he
      split at he
      · cases he
      · cases he
        exact ⟨[], rfl, rfl, fun h => by cases h⟩

end Pattern

namespace Rule

theorem close_advances {r : Rule} {c : Cursor} {o : Outcome} {a : Bool} (h : o.Advances a c) :
    (r.close c o).Advances a c := by
  intro d ns hd
  unfold close at hd
  split at hd
  · next e ms hres =>
    have := h e ms hres
    split at hd <;> cases hd <;> exact this
  · cases hd

theorem pattern_steady {r : Rule} (h : r ≠ body) : r.pattern.steady = true := by
  cases r <;> first | rfl | exact absurd rfl h

/-- A body forgets the indentation that it remembered. -/
theorem body_advances {call : Rule → Cursor → Outcome}
    (hcall : ∀ r c, (call r c).Advances true c) (c : Cursor) :
    (body.pattern.run call c).Advances true c := by
  intro e ns he
  obtain ⟨t, ht, hp, -⟩ := Pattern.run_advances hcall body.pattern c e ns he
  refine ⟨t, ht, hp, fun _ => ?_⟩
  obtain ⟨c₁, _, _, h₁, e₁, -⟩ := Outcome.andThen_eq_some_iff.mp he
  obtain ⟨c₂, _, _, h₂, e₂, -⟩ := Outcome.andThen_eq_some_iff.mp e₁
  obtain ⟨c₃, _, _, h₃, e₃, -⟩ := Outcome.andThen_eq_some_iff.mp e₂
  obtain ⟨c₄, _, _, h₄, e₄, -⟩ := Outcome.andThen_eq_some_iff.mp e₃
  obtain ⟨-, -, -, i₁⟩ := Pattern.run_advances hcall .peekAll c c₁ _ h₁
  obtain ⟨-, -, -, i₃⟩ := Pattern.run_advances hcall (.rule stmt) c₂ c₃ _ h₃
  obtain ⟨-, -, -, i₄⟩ := Pattern.run_advances hcall _ c₃ c₄ _ h₄
  -- The innermost indentation of `c₂`, `c₃` and `c₄` is the one that `push` remembered.
  simp only [Pattern.run, Option.map_eq_some_iff] at h₂
  obtain ⟨⟨c', ms⟩, h₂, heq⟩ := h₂
  cases heq
  obtain ⟨-, -, -, i₂⟩ := Pattern.run_advances hcall .indent c₁ c' ms h₂
  have hi : c₄.indents = c₁.textTo c' :: c.indents := by
    rw [i₄ rfl, i₃ rfl, Cursor.push, i₂ rfl, i₁ rfl]
  simp only [Pattern.all, Pattern.run, Cursor.drop?, hi, Outcome.ofCursor?] at e₄
  cases e₄
  rfl

theorem run_advances (n : Nat) (r : Rule) (c : Cursor) : (run n r c).Advances true c := by
  induction n generalizing r c with
  | zero => intro d ns hd; cases hd
  | succ n ih =>
    rw [run]
    refine close_advances ?_
    by_cases hb : r = body
    · subst hb
      exact body_advances ih c
    · have := Pattern.run_advances ih r.pattern c
      rwa [pattern_steady hb] at this

/-- **A match of a rule ends after a part of what was to be read** and keeps the remembered
indentations. -/
theorem outcome_advances (r : Rule) (c : Cursor) : (r.outcome c).Advances true c :=
  run_advances _ r c

theorem outcome_reads (r : Rule) (c : Cursor) : (r.outcome c).Reads (!r.nullable) c :=
  run_reads _ r c

/-- The node of a rule that took a text. -/
def node (r : Rule) (pos : Nat) (t : List Char) (inner : List Node) : Node :=
  if r.isAtomic then .leaf r pos t else .branch r ⟨pos, pos + byteSize t⟩ inner

end Rule

/-! ### Taking and refusing -/

namespace Pattern

/-- Before `t ++ k`, at a byte offset and with some remembered indentations, the pattern takes `t`
and leaves nodes. -/
def Takes (p : Pattern) (ind : List (List Char)) (pos : Nat) (t k : List Char) (ns : List Node) :
    Prop :=
  (p.run Rule.outcome ⟨t ++ k, pos, ind⟩).result = some (⟨k, pos + byteSize t, ind⟩, ns)

/-- The pattern does not match before a text. -/
def Refuses (p : Pattern) (ind : List (List Char)) (pos : Nat) (cs : List Char) : Prop :=
  (p.run Rule.outcome ⟨cs, pos, ind⟩).result = none

/-- A text does not start with a character of the class. -/
def Stops (K : CharClass) (k : List Char) : Prop :=
  ∀ x, k.head? = some x → K.contains x = false

variable {p q : Pattern} {ind : List (List Char)} {pos : Nat} {t k cs : List Char} {ns : List Node}

theorem takes_of_run {c d : Cursor} (hs : p.steady = true)
    (h : (p.run Rule.outcome c).result = some (d, ns)) :
    ∃ t, c.rest = t ++ d.rest ∧ d = ⟨d.rest, c.pos + byteSize t, c.indents⟩ ∧
      p.Takes c.indents c.pos t d.rest ns := by
  obtain ⟨t, ht, hp, hi⟩ := run_advances Rule.outcome_advances p c d ns h
  have hd : d = ⟨d.rest, c.pos + byteSize t, c.indents⟩ := by rw [← hp, ← hi hs]
  refine ⟨t, ht, hd, ?_⟩
  unfold Takes
  rw [← hd, ← ht]
  exact h

/-- **A steady pattern refuses a text or takes a part of it.** -/
theorem takes_or_refuses (hs : p.steady = true) (ind : List (List Char)) (pos : Nat)
    (cs : List Char) :
    p.Refuses ind pos cs ∨ ∃ t k ns, cs = t ++ k ∧ p.Takes ind pos t k ns := by
  cases h : (p.run Rule.outcome ⟨cs, pos, ind⟩).result with
  | none => exact Or.inl h
  | some x =>
    obtain ⟨d, ns⟩ := x
    obtain ⟨t, ht, -, htakes⟩ := takes_of_run hs h
    exact Or.inr ⟨t, d.rest, ns, ht, htakes⟩

theorem Takes.not_refuses (h : p.Takes ind pos t k ns) : ¬ p.Refuses ind pos (t ++ k) := by
  intro hr
  unfold Takes at h
  rw [hr] at h
  cases h

/-- A pattern takes only one part of a text. -/
theorem Takes.unique {t' k' : List Char} {ns' : List Node} (h : p.Takes ind pos t k ns)
    (h' : p.Takes ind pos t' k' ns') (heq : t ++ k = t' ++ k') : t = t' ∧ k = k' ∧ ns = ns' := by
  unfold Takes at h h'
  rw [heq, h'] at h
  simp only [Option.some.injEq, Prod.mk.injEq, Cursor.mk.injEq] at h
  obtain ⟨⟨rfl, -, -⟩, rfl⟩ := h
  exact ⟨List.append_cancel_right heq, rfl, rfl⟩

theorem refuses_iff (hs : p.steady = true) :
    p.Refuses ind pos cs ↔ ∀ t k ns, cs = t ++ k → ¬ p.Takes ind pos t k ns := by
  constructor
  · rintro h t k ns rfl ht
    exact ht.not_refuses h
  · intro h
    rcases takes_or_refuses hs ind pos cs with hr | ⟨t, k, ns, hcs, ht⟩
    · exact hr
    · exact absurd ht (h t k ns hcs)

end Pattern

end Offside
