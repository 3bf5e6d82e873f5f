import Offside.Grammar.Match

/-!
# The allowance is never used up

Every rule is run with an allowance of nested rules.  Between two characters rules can only lead to
rules of a lower rank, and there are fewer than eight ranks, so that eight rules for each character
are enough and any larger allowance gives the same outcome.

* what a match reads: `Pattern.run_reads`;
* a pattern only asks for the rules that it can reach: `Pattern.run_congr`;
* **the outcome of a rule is that of its pattern with the same rules inside it**:
  `Rule.outcome_eq`, which mentions no allowance.
-/

namespace Offside

/-! ### Rules that may take nothing, and the order of rules that start at one place -/

namespace Rule

/-- Can the rule match without reading a character? -/
def nullable : Rule → Bool
  | endOfInput | params | elifs | elseStmt | args => true
  | _ => false

/-- The height of a rule among the rules that can start at the same place. -/
def rank : Rule → Nat
  | endOfInput | definition | body | doStmt | ifStmt | elifStmt | elseStmt | name | longString
  | string | hexNumber | octNumber | binNumber | floatNumber | decNumber => 0
  | program | params | elifs | call | assignment | imagNumber => 1
  | atom => 2
  | lineStmt => 3
  | stmt | args => 4

theorem rank_lt (r : Rule) : r.rank < 8 := by
  cases r <;> decide

end Rule

namespace Pattern

/-- Can the pattern match without reading a character? -/
def nullable : Pattern → Bool
  | text cs => cs.isEmpty
  | one _ => false
  | many _ | stop | star _ | ahead _ | notAhead _ | peekAll | drop => true
  | seq p q => p.nullable && q.nullable
  | alt p q => p.nullable || q.nullable
  | rule r => r.nullable
  | push p => p.nullable

/-- Are all rules that the pattern can try before it has read a character below a rank? -/
def leadsBelow (k : Nat) : Pattern → Bool
  | rule r => r.rank < k
  | seq p q => p.leadsBelow k && (!p.nullable || q.leadsBelow k)
  | alt p q => p.leadsBelow k && q.leadsBelow k
  | star p | ahead p | notAhead p | push p => p.leadsBelow k
  | _ => true

theorem leadsBelow_eight (p : Pattern) : p.leadsBelow 8 = true := by
  induction p <;> simp_all [leadsBelow, Rule.rank_lt]

end Pattern

theorem Rule.pattern_leadsBelow (r : Rule) : r.pattern.leadsBelow r.rank = true := by
  cases r <;> decide

theorem Rule.pattern_nullable (r : Rule) : r.pattern.nullable = r.nullable := by
  cases r <;> decide

/-! ### What a match reads -/

/-- A match leaves no more to read than there was, and less if it must read something. -/
def Outcome.Reads (must : Bool) (c : Cursor) (o : Outcome) : Prop :=
  ∀ d ns, o.result = some (d, ns) →
    d.rest.length ≤ c.rest.length ∧ (must = true → d.rest.length < c.rest.length)

namespace Outcome

theorem reads_mismatch {must : Bool} {c : Cursor} : mismatch.Reads must c := by
  intro d ns h
  cases h

theorem reads_reached {must : Bool} {c d : Cursor} (hle : d.rest.length ≤ c.rest.length)
    (hlt : must = true → d.rest.length < c.rest.length) : (reached d).Reads must c := by
  intro e ns h
  cases h
  exact ⟨hle, hlt⟩

theorem Reads.andThen {a b : Bool} {c : Cursor} {o : Outcome} {next : Cursor → Outcome}
    (h : o.Reads a c) (hn : ∀ d, (next d).Reads b d) : (o.andThen next).Reads (a || b) c := by
  intro e ns he
  unfold Outcome.andThen at he
  split at he
  · next hnone => rw [hnone] at he; cases he
  · next d ms hsome =>
    obtain ⟨hle, hlt⟩ := h d ms hsome
    simp only [Option.map_eq_some_iff] at he
    obtain ⟨⟨e', ms'⟩, hres, heq⟩ := he
    cases heq
    obtain ⟨hle', hlt'⟩ := hn d e' ms' hres
    dsimp only
    refine ⟨by omega, fun hab => ?_⟩
    rcases Bool.or_eq_true_iff.mp hab with ha | hb
    · have := hlt ha
      omega
    · have := hlt' hb
      omega

theorem Reads.orElse {must : Bool} {c : Cursor} {o : Outcome} {other : Unit → Outcome}
    (h : o.Reads must c) (ho : (other ()).Reads must c) : (o.orElse other).Reads must c := by
  intro d ns hd
  unfold Outcome.orElse at hd
  split at hd
  · exact h d ns hd
  · exact ho d ns hd

theorem Reads.weaken {a b : Bool} {c : Cursor} {o : Outcome} (h : o.Reads a c)
    (hab : b = true → a = true) : o.Reads b c :=
  fun d ns hd => ⟨(h d ns hd).1, fun hb => (h d ns hd).2 (hab hb)⟩

theorem Reads.iterate {must : Bool} {step : Cursor → Outcome} (h : ∀ d, (step d).Reads must d)
    (n : Nat) (c : Cursor) : (iterate step n c).Reads false c := by
  induction n generalizing c with
  | zero => exact reads_reached (Nat.le_refl _) (fun h => by cases h)
  | succ n ih =>
    refine Reads.orElse ?_ (reads_reached (Nat.le_refl _) (fun h => by cases h))
    exact ((h c).andThen ih).weaken (fun h => by cases h)

end Outcome

namespace Pattern

open Outcome

/-- **A match leaves no more to read than there was**, and less if the pattern cannot match
nothing. -/
theorem run_reads {call : Rule → Cursor → Outcome}
    (hcall : ∀ r c, (call r c).Reads (!r.nullable) c) (p : Pattern) (c : Cursor) :
    (p.run call c).Reads (!p.nullable) c := by
  induction p generalizing c with
  | text cs =>
    intro d ns h
    simp only [run, ofCursor?] at h
    split at h
    · cases h
    · next e he =>
      cases h
      obtain ⟨rest, hrest, rfl⟩ := Cursor.eat?_eq_some_iff.mp he
      simp only [Cursor.move, hrest, List.length_append, nullable]
      cases cs <;> simp
  | one k =>
    intro d ns h
    simp only [run, ofCursor?] at h
    split at h
    · cases h
    · next e he =>
      cases h
      unfold Cursor.eatOne? at he
      split at he
      · cases he
      · next x xs hx =>
        split at he
        · cases he
          simp [Cursor.move, hx]
        · cases he
  | many k =>
    refine reads_reached ?_ (fun h => by cases h)
    simp only [Cursor.eatMany, Cursor.move]
    exact (List.dropWhile_sublist _).length_le
  | stop =>
    simp only [run]
    split
    · exact reads_reached (Nat.le_refl _) (fun h => by cases h)
    · exact reads_mismatch
  | seq p q ihp ihq =>
    rw [run, nullable, Bool.not_and]
    exact (ihp c).andThen ihq
  | alt p q ihp ihq =>
    rw [run, nullable, Bool.not_or]
    refine Reads.orElse ((ihp c).weaken fun h => ?_) ((ihq c).weaken fun h => ?_)
    · exact (Bool.and_eq_true_iff.mp h).1
    · exact (Bool.and_eq_true_iff.mp h).2
  | star p ih => exact Reads.iterate ih _ c
  | ahead p ih =>
    intro d ns h
    simp only [run, Option.map_eq_some_iff] at h
    obtain ⟨_, _, heq⟩ := h
    cases heq
    exact ⟨Nat.le_refl _, fun h => by cases h⟩
  | notAhead p ih =>
    simp only [run]
    split
    · exact reads_mismatch
    · exact reads_reached (Nat.le_refl _) (fun h => by cases h)
  | rule r => exact hcall r c
  | push p ih =>
    intro d ns h
    simp only [run, Option.map_eq_some_iff] at h
    obtain ⟨⟨e, ms⟩, hres, heq⟩ := h
    cases heq
    exact ih c e ms hres
  | peekAll =>
    intro d ns h
    simp only [run, ofCursor?] at h
    split at h
    · cases h
    · next e he =>
      cases h
      obtain ⟨rest, hrest, rfl⟩ := Cursor.eat?_eq_some_iff.mp he
      simp [Cursor.move, hrest, nullable]
  | drop =>
    intro d ns h
    simp only [run, ofCursor?] at h
    split at h
    · cases h
    · next e he =>
      cases h
      unfold Cursor.drop? at he
      split at he
      · cases he
      · cases he
        exact ⟨Nat.le_refl _, fun h => by cases h⟩

end Pattern

namespace Rule

theorem close_reads {r : Rule} {c : Cursor} {o : Outcome} {must : Bool} (h : o.Reads must c) :
    (r.close c o).Reads must c := by
  intro d ns hd
  unfold close at hd
  split at hd
  · next e ms hres =>
    have := h e ms hres
    split at hd <;> cases hd <;> exact this
  · cases hd

/-- A match of a rule leaves no more to read than there was. -/
theorem run_reads (n : Nat) (r : Rule) (c : Cursor) : (run n r c).Reads (!r.nullable) c := by
  induction n generalizing r c with
  | zero => exact Outcome.reads_mismatch
  | succ n ih =>
    rw [run, ← pattern_nullable]
    exact close_reads (Pattern.run_reads ih _ c)

end Rule

/-! ### What a pattern asks for -/

/-- Two ways to run rules agree on what is left of a source of `n` characters, and at its start on
the rules below a rank. -/
def AgreeBelow (n k : Nat) (call call' : Rule → Cursor → Outcome) : Prop :=
  ∀ r c, c.rest.length < n ∨ (c.rest.length = n ∧ r.rank < k) → call r c = call' r c

theorem AgreeBelow.shorter {n k m : Nat} {call call' : Rule → Cursor → Outcome}
    (h : AgreeBelow n k call call') (hm : m < n) : AgreeBelow m 8 call call' :=
  fun r c hc => h r c (Or.inl (by omega))

namespace Outcome

theorem andThen_congr {o : Outcome} {f g : Cursor → Outcome}
    (h : ∀ d ns, o.result = some (d, ns) → f d = g d) : o.andThen f = o.andThen g := by
  unfold andThen
  split
  · rfl
  · next d ns hres => rw [h d ns hres]

theorem iterate_congr {f g : Cursor → Outcome} {n : Nat}
    (hf : ∀ d, (f d).Reads false d) (h : ∀ d, d.rest.length ≤ n → f d = g d)
    (m : Nat) (c : Cursor) (hc : c.rest.length ≤ n) : iterate f m c = iterate g m c := by
  induction m generalizing c with
  | zero => rfl
  | succ m ih =>
    have hstep : (f c).andThen (iterate f m) = (g c).andThen (iterate g m) := by
      rw [← h c hc]
      exact andThen_congr fun d ns hd => ih d (Nat.le_trans (hf c d ns hd).1 hc)
    rw [iterate, iterate, hstep]

end Outcome

namespace Pattern

open Outcome

/-- **A pattern only asks for the rules that it can reach:** those that it may start with where it
stands, and any rule once it has read a character. -/
theorem run_congr {call call' : Rule → Cursor → Outcome}
    (hcall : ∀ r c, (call r c).Reads (!r.nullable) c) (p : Pattern) {k : Nat} {c : Cursor}
    (hk : p.leadsBelow k = true) (h : AgreeBelow c.rest.length k call call') :
    p.run call c = p.run call' c := by
  induction p generalizing k c with
  | text cs => rfl
  | one cls => rfl
  | many cls => rfl
  | stop => rfl
  | seq p q ihp ihq =>
    simp only [leadsBelow, Bool.and_eq_true, Bool.or_eq_true, Bool.not_eq_true'] at hk
    rw [run, run, ← ihp hk.1 h]
    refine andThen_congr fun d ns hd => ?_
    obtain ⟨hle, hlt⟩ := p.run_reads hcall c d ns hd
    rcases Nat.lt_or_eq_of_le hle with hshort | hsame
    · exact ihq q.leadsBelow_eight (h.shorter hshort)
    · rcases hk.2 with hp | hq
      · exact absurd (hlt (by rw [hp]; rfl)) (by omega)
      · exact ihq hq (hsame ▸ h)
  | alt p q ihp ihq =>
    simp only [leadsBelow, Bool.and_eq_true] at hk
    rw [run, run, ihp hk.1 h, ihq hk.2 h]
  | star p ih =>
    rw [run, run]
    refine iterate_congr (n := c.rest.length) (fun d => (p.run_reads hcall d).weaken nofun)
      (fun d hd => ?_) _ c (Nat.le_refl _)
    rcases Nat.lt_or_eq_of_le hd with hshort | hsame
    · exact ih p.leadsBelow_eight (h.shorter hshort)
    · exact ih hk (hsame ▸ h)
  | ahead p ih => simp only [run, ih hk h]
  | notAhead p ih => simp only [run, ih hk h]
  | rule r =>
    refine h r c (Or.inr ⟨rfl, ?_⟩)
    simpa only [leadsBelow, decide_eq_true_eq] using hk
  | push p ih => simp only [run, ih hk h]
  | peekAll => rfl
  | drop => rfl

end Pattern

/-! ### Enough is enough -/

namespace Rule

/-- An allowance that suffices for a rule at a cursor. -/
def needed (r : Rule) (c : Cursor) : Nat :=
  8 * c.rest.length + r.rank + 1

/-- **A larger allowance changes nothing.** -/
theorem run_of_needed_le {n m : Nat} {r : Rule} {c : Cursor} (hn : needed r c ≤ n)
    (hm : needed r c ≤ m) : run n r c = run m r c := by
  induction n generalizing m r c with
  | zero => simp [needed] at hn
  | succ n ih =>
    cases m with
    | zero => simp [needed] at hm
    | succ m =>
      unfold needed at hn hm
      have hagree : AgreeBelow c.rest.length r.rank (run n) (run m) := by
        intro r' c' hc
        have hr := r'.rank_lt
        rcases hc with hlt | ⟨heq, hrank⟩
        · exact ih (by unfold needed; omega) (by unfold needed; omega)
        · exact ih (by unfold needed; omega) (by unfold needed; omega)
      rw [run, run, r.pattern.run_congr (run_reads n) r.pattern_leadsBelow hagree]

/-- The outcome of a rule at a cursor. -/
def outcome (r : Rule) (c : Cursor) : Outcome :=
  run (needed r c) r c

theorem run_eq_outcome {n : Nat} {r : Rule} {c : Cursor} (h : needed r c ≤ n) :
    run n r c = r.outcome c :=
  run_of_needed_le h (Nat.le_refl _)

/-- **The outcome of a rule is that of its pattern,** where the rules inside have their outcomes. -/
theorem outcome_eq (r : Rule) (c : Cursor) :
    r.outcome c = r.close c (r.pattern.run outcome c) := by
  have hagree : AgreeBelow c.rest.length r.rank (run (8 * c.rest.length + r.rank)) outcome := by
    intro r' c' hc
    have hr := r'.rank_lt
    rcases hc with hlt | ⟨heq, hrank⟩
    · exact run_eq_outcome (by unfold needed; omega)
    · exact run_eq_outcome (by unfold needed; omega)
  have hrun := r.pattern.run_congr (run_reads _) r.pattern_leadsBelow hagree
  change r.close c (r.pattern.run (run (8 * c.rest.length + r.rank)) c) = _
  rw [hrun]

end Rule

namespace Pattern

/-- Matching at the start of a source is running the pattern with the outcomes of all rules. -/
theorem matchStart_eq (p : Pattern) (source : List Char) :
    p.matchStart source = p.run Rule.outcome (.start source) := by
  refine p.run_congr (Rule.run_reads _) p.leadsBelow_eight ?_
  intro r c hc
  have hr := r.rank_lt
  refine Rule.run_eq_outcome ?_
  unfold Rule.needed allowance
  rcases hc with hlt | ⟨heq, -⟩
  · change c.rest.length < source.length at hlt
    omega
  · change c.rest.length = source.length at heq
    omega

end Pattern

end Offside
