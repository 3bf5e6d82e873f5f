import Mathlib.Algebra.BigOperators.Ring.List
import Mathlib.Algebra.Ring.Int.Defs
import Mathlib.Data.List.Forall2
import Offside.Builtin

/-!
# Arithmetic

What the arithmetic functions give on every list of operands, by rules that look at the operands as a
whole: which of them is the first that counts as no number, where the first string stands, which
counts are too large.  The functions themselves go through the operands one by one, and `mul` starts
with a number and goes on with a string from the first string on.

* the number that a value counts as: `Value.Counts`; operands that are all numbers, or the first that
  is none: `Value.numbers_or_misfit`;
* division rounded down: `IsFloor`, `Arith.isFloor_floorDiv`, `IsFloor.unique`;
* **sums, differences and quotients**: `Arith.Gives`, `Builtin.call_arith_iff`;
* **products**: `Arith.MulGives`, `Builtin.call_mul_iff`.
-/

namespace Offside

open List (Forall₂)

/-! ### Numbers -/

namespace Value

/-- The number that a value counts as: an integer as itself, a boolean as zero or one. -/
inductive Counts : Value → Int → Prop
  | int (i : Int) : Counts (.int i) i
  | false : Counts (.bool false) 0
  | true : Counts (.bool true) 1

/-- Does the value count as a number? -/
def Numeric (v : Value) : Prop :=
  ∃ i, v.Counts i

theorem asInt?_eq_some_iff {v : Value} {i : Int} : v.asInt? = some i ↔ v.Counts i := by
  constructor
  · intro h
    cases v with
    | empty | str s => cases h
    | int j =>
      cases h
      exact .int i
    | bool b =>
      cases b with
      | false =>
        cases h
        exact .false
      | true =>
        cases h
        exact .true
  · rintro (_ | _ | _) <;> rfl

theorem asInt?_eq_none_iff {v : Value} : v.asInt? = none ↔ ¬ v.Numeric := by
  unfold Numeric
  simp only [← asInt?_eq_some_iff, Option.eq_none_iff_forall_ne_some, not_exists, ne_eq]

/-- Values all count as numbers, or there is a first one that does not. -/
theorem numbers_or_misfit (vs : List Value) :
    (∃ xs, Forall₂ Counts vs xs) ∨
    ∃ before xs v after, vs = before ++ v :: after ∧ Forall₂ Counts before xs ∧ ¬ v.Numeric := by
  induction vs with
  | nil => exact Or.inl ⟨[], .nil⟩
  | cons v vs ih =>
    by_cases hv : v.Numeric
    · obtain ⟨x, hx⟩ := hv
      rcases ih with ⟨xs, hxs⟩ | ⟨before, xs, w, after, rfl, hxs, hw⟩
      · exact Or.inl ⟨x :: xs, .cons hx hxs⟩
      · exact Or.inr ⟨v :: before, x :: xs, w, after, rfl, .cons hx hxs, hw⟩
    · exact Or.inr ⟨[], [], v, vs, rfl, .nil, hv⟩

/-- Values that are neither strings nor empty are numbers. -/
theorem exists_counts {vs : List Value} (hstr : ∀ s, .str s ∉ vs) (hempty : .empty ∉ vs) :
    ∃ xs, Forall₂ Counts vs xs := by
  rcases numbers_or_misfit vs with h | ⟨before, xs, v, after, rfl, -, hv⟩
  · exact h
  · cases v with
    | empty => simp at hempty
    | str s => exact absurd (List.mem_append_right before (List.mem_cons_self ..)) (hstr s)
    | int i => exact absurd ⟨i, .int i⟩ hv
    | bool b => exact absurd (by cases b; exacts [⟨0, .false⟩, ⟨1, .true⟩]) hv

end Value

open Value (Counts)

/-! ### Division -/

/-- `q` is `n / d` rounded towards the lesser integer. -/
def IsFloor (n d q : Int) : Prop :=
  (0 < d → 0 ≤ n - q * d ∧ n - q * d < d) ∧ (d < 0 → d < n - q * d ∧ n - q * d ≤ 0)

namespace IsFloor

variable {n d q q' : Int}

/-- A quotient stays the same when both signs are changed. -/
theorem neg (h : IsFloor n d q) : IsFloor (-n) (-d) q := by
  unfold IsFloor at h ⊢
  rw [Int.mul_neg]
  omega

theorem le_of_pos (hd : 0 < d) (h : IsFloor n d q) (h' : IsFloor n d q') : q ≤ q' := by
  obtain ⟨hlow, -⟩ := h.1 hd
  obtain ⟨-, hhigh⟩ := h'.1 hd
  have hlt : q * d < (q' + 1) * d := by
    rw [Int.add_mul, Int.one_mul]
    omega
  exact Int.lt_add_one_iff.mp (Int.lt_of_mul_lt_mul_right hlt (Int.le_of_lt hd))

/-- Only one number is a quotient rounded down. -/
theorem unique (hd : d ≠ 0) (h : IsFloor n d q) (h' : IsFloor n d q') : q = q' := by
  rcases Int.lt_or_gt_of_ne hd with hneg | hpos
  · have hpos : 0 < -d := by omega
    exact Int.le_antisymm (le_of_pos hpos h.neg h'.neg) (le_of_pos hpos h'.neg h.neg)
  · exact Int.le_antisymm (le_of_pos hpos h h') (le_of_pos hpos h' h)

end IsFloor

namespace Arith

theorem floorDiv_eq (n d : Int) : floorDiv n d =
    if n.tmod d ≠ 0 ∧ ¬ (n.tmod d < 0 ↔ d < 0) then n.tdiv d - 1 else n.tdiv d := by
  simp [floorDiv]

/-- **Correcting the quotient that is rounded towards zero rounds it down.** -/
theorem isFloor_floorDiv {d : Int} (n : Int) (hd : d ≠ 0) : IsFloor n d (floorDiv n d) := by
  have hdiv : n.tmod d + n.tdiv d * d = n := by
    rw [Int.mul_comm]
    exact Int.tmod_add_mul_tdiv n d
  have hsize : (n.tmod d).natAbs < d.natAbs := by
    rw [Int.natAbs_tmod]
    exact Nat.mod_lt _ (Int.natAbs_pos.mpr hd)
  unfold IsFloor
  rw [floorDiv_eq]
  by_cases hsign : n.tmod d ≠ 0 ∧ ¬ (n.tmod d < 0 ↔ d < 0)
  · rw [if_pos hsign, Int.sub_mul, Int.one_mul]
    omega
  · rw [if_neg hsign]
    omega

/-! ### Operands -/

theorem operand_of_counts {v : Value} {i : Int} (op : Arith) (h : v.Counts i) :
    op.operand v = .ok i := by
  unfold operand
  rw [Value.asInt?_eq_some_iff.mpr h]

theorem operand_of_not_numeric {v : Value} (op : Arith) (h : ¬ v.Numeric) :
    op.operand v = .error (.arithmetic op.name v.kind) := by
  unfold operand
  rw [Value.asInt?_eq_none_iff.mpr h]

theorem mapM_operand {vs : List Value} {xs : List Int} (op : Arith) (h : Forall₂ Counts vs xs) :
    vs.mapM op.operand = .ok xs := by
  induction h with
  | nil => rfl
  | cons hv _ ih =>
    rw [List.mapM_cons, operand_of_counts op hv, ih]
    rfl

theorem mapM_operand_of_misfit {before after : List Value} {xs : List Int} {v : Value} (op : Arith)
    (h : Forall₂ Counts before xs) (hv : ¬ v.Numeric) :
    (before ++ v :: after).mapM op.operand = .error (.arithmetic op.name v.kind) := by
  rw [List.mapM_append, mapM_operand op h, List.mapM_cons, operand_of_not_numeric op hv]
  rfl

/-! ### Sums, differences and quotients -/

/-- **What `add`, `sub` and `div` give**, where `v` is the first operand and `vs` are the others. -/
inductive Gives : Arith → List Value → Except Cause Value → Prop
  /-- There are at least two operands. -/
  | tooFew {op : Arith} {args : List Value} : args.length < 2 →
      Gives op args (.error (.tooFewOperands op.name args.length))
  /-- The first operand that is no number is to blame, whatever the numbers are. -/
  | misfit {op : Arith} {before after : List Value} {xs : List Int} {v : Value} :
      2 ≤ (before ++ v :: after).length → Forall₂ Counts before xs → ¬ v.Numeric →
      Gives op (before ++ v :: after) (.error (.arithmetic op.name v.kind))
  | sum {v : Value} {vs : List Value} {x : Int} {xs : List Int} : vs ≠ [] → v.Counts x →
      Forall₂ Counts vs xs → Gives .add (v :: vs) (.ok (.int (x + xs.sum)))
  | difference {v : Value} {vs : List Value} {x : Int} {xs : List Int} : vs ≠ [] → v.Counts x →
      Forall₂ Counts vs xs → Gives .sub (v :: vs) (.ok (.int (x - xs.sum)))
  | zeroDivisor {v : Value} {vs : List Value} {x : Int} {xs : List Int} : vs ≠ [] → v.Counts x →
      Forall₂ Counts vs xs → 0 ∈ xs → Gives .div (v :: vs) (.error .divisionByZero)
  | quotient {v : Value} {vs : List Value} {x q : Int} {xs : List Int} : vs ≠ [] → v.Counts x →
      Forall₂ Counts vs xs → 0 ∉ xs → IsFloor x xs.prod q → Gives .div (v :: vs) (.ok (.int q))

theorem apply_of_length_lt {args : List Value} (op : Arith) (h : args.length < 2) :
    op.apply args = .error (.tooFewOperands op.name args.length) := by
  match args with
  | [] | [_] => rfl
  | _ :: _ :: _ => exact absurd h (by simp)

/-- Operands are all turned into numbers before anything is made of them. -/
theorem apply_of_ne_mul {op : Arith} (hop : op ≠ .mul) {v : Value} {vs : List Value} (hvs : vs ≠ []) :
    op.apply (v :: vs) = (do
      let x ← op.operand v
      let xs ← vs.mapM op.operand
      match op with
      | div => quotient x xs
      | sub => return .int (x - total xs)
      | _ => return .int (x + total xs)) := by
  cases vs with
  | nil => exact absurd rfl hvs
  | cons w vs =>
    cases op with
    | mul => exact absurd rfl hop
    | add | sub | div => rfl

theorem apply_of_misfit {op : Arith} (hop : op ≠ .mul) {before after : List Value} {xs : List Int}
    {v : Value} (hlen : 2 ≤ (before ++ v :: after).length) (h : Forall₂ Counts before xs)
    (hv : ¬ v.Numeric) :
    op.apply (before ++ v :: after) = .error (.arithmetic op.name v.kind) := by
  cases h with
  | nil =>
    have hafter : after ≠ [] := by
      rintro rfl
      simp at hlen
    rw [List.nil_append, apply_of_ne_mul hop hafter, operand_of_not_numeric op hv]
    rfl
  | cons hu h =>
    rw [List.cons_append, apply_of_ne_mul hop (by simp), operand_of_counts op hu,
      mapM_operand_of_misfit op h hv]
    rfl

theorem total_eq_sum (xs : List Int) : total xs = xs.sum :=
  List.sum_eq_foldl.symm

theorem quotient_eq (x : Int) (xs : List Int) :
    quotient x xs = if 0 ∈ xs then .error .divisionByZero else .ok (.int (floorDiv x xs.prod)) := by
  unfold quotient
  simp only [← List.prod_eq_foldl, List.prod_eq_zero_iff]

/-- What is made of operands that are all numbers. -/
theorem apply_of_numbers {op : Arith} (hop : op ≠ .mul) {v : Value} {vs : List Value} {x : Int}
    {xs : List Int} (hvs : vs ≠ []) (hv : v.Counts x) (hxs : Forall₂ Counts vs xs) :
    op.apply (v :: vs) =
      match op with
      | div => quotient x xs
      | sub => .ok (.int (x - xs.sum))
      | _ => .ok (.int (x + xs.sum)) := by
  rw [apply_of_ne_mul hop hvs, operand_of_counts op hv, mapM_operand op hxs, ← total_eq_sum]
  cases op <;> rfl

/-- The rules hold of what is computed. -/
theorem Gives.apply_eq {op : Arith} (hop : op ≠ .mul) {args : List Value} {r : Except Cause Value}
    (h : op.Gives args r) : op.apply args = r := by
  cases h with
  | tooFew hlen => exact apply_of_length_lt op hlen
  | misfit hlen hbefore hv => exact apply_of_misfit hop hlen hbefore hv
  | sum hvs hv hxs => exact apply_of_numbers hop hvs hv hxs
  | difference hvs hv hxs => exact apply_of_numbers hop hvs hv hxs
  | zeroDivisor hvs hv hxs hzero =>
    rw [apply_of_numbers hop hvs hv hxs]
    exact (quotient_eq _ _).trans (if_pos hzero)
  | @quotient v vs x q xs hvs hv hxs hzero hq =>
    have hne : xs.prod ≠ 0 := fun h => hzero (List.prod_eq_zero_iff.mp h)
    rw [apply_of_numbers hop hvs hv hxs, hq.unique hne (isFloor_floorDiv x hne)]
    exact (quotient_eq x xs).trans (if_neg hzero)

/-- Some rule applies to every list of operands. -/
theorem exists_gives {op : Arith} (hop : op ≠ .mul) (args : List Value) : ∃ r, op.Gives args r := by
  by_cases hlen : args.length < 2
  · exact ⟨_, .tooFew hlen⟩
  · rw [Nat.not_lt] at hlen
    rcases Value.numbers_or_misfit args with ⟨xs, hxs⟩ | ⟨before, xs, v, after, rfl, hxs, hv⟩
    · cases hxs with
      | nil => simp at hlen
      | @cons v x vs xs hv hxs =>
        have hvs : vs ≠ [] := by
          rintro rfl
          simp at hlen
        cases op with
        | mul => exact absurd rfl hop
        | add => exact ⟨_, .sum hvs hv hxs⟩
        | sub => exact ⟨_, .difference hvs hv hxs⟩
        | div =>
          by_cases hzero : 0 ∈ xs
          · exact ⟨_, .zeroDivisor hvs hv hxs hzero⟩
          · have hne : xs.prod ≠ 0 := fun h => hzero (List.prod_eq_zero_iff.mp h)
            exact ⟨_, .quotient hvs hv hxs hzero (isFloor_floorDiv x hne)⟩
    · exact ⟨_, .misfit hlen hxs hv⟩

/-- The rules say what is computed. -/
theorem apply_eq_iff {op : Arith} (hop : op ≠ .mul) {args : List Value} {r : Except Cause Value} :
    op.apply args = r ↔ op.Gives args r := by
  refine ⟨?_, Gives.apply_eq hop⟩
  rintro rfl
  obtain ⟨r, hr⟩ := exists_gives hop args
  rwa [hr.apply_eq hop]

end Arith

theorem Builtin.call_arith_eq_iff {op : Arith} {args : List Value} {r : Except Cause Value}
    {c c' : Console} : (Builtin.arith op).call args c = (r, c') ↔ op.apply args = r ∧ c' = c := by
  change (op.apply args, c) = (r, c') ↔ _
  rw [Prod.mk.injEq, eq_comm (a := c)]

/-- **Sums, differences and quotients.**  The functions `add`, `sub` and `div` give what the rules say
and nothing else, and leave the console alone.  The quotient that the rules ask for exists and is
unique. -/
theorem Builtin.call_arith_iff {op : Arith} (hop : op ≠ .mul) (args : List Value)
    (r : Except Cause Value) (c c' : Console) :
    ((Builtin.arith op).call args c = (r, c') ↔ op.Gives args r ∧ c' = c) ∧
    ∀ n d : Int, d ≠ 0 → ∃! q, IsFloor n d q := by
  refine ⟨?_, fun n d hd => ?_⟩
  · rw [Builtin.call_arith_eq_iff, Arith.apply_eq_iff hop]
  · exact ⟨Arith.floorDiv n d, Arith.isFloor_floorDiv n hd,
      fun q hq => hq.unique hd (Arith.isFloor_floorDiv n hd)⟩

/-- The divisor is negative, one of its factors is a boolean, and the division leaves a remainder. -/
theorem Builtin.call_arith_iff_floor :
    (Builtin.arith .div).call [.int 7, .int (-2), .bool true] {} = (.ok (.int (-4)), {}) :=
  (Builtin.call_arith_iff (by decide) _ _ _ _).1.mpr
    ⟨.quotient (by simp) (.int 7) (.cons (.int (-2)) (.cons .true .nil)) (by decide)
      (by unfold IsFloor; decide), rfl⟩

/-! ### Products -/

namespace Arith

/-- A text so many times over. -/
def copies (n : Nat) (s : String) : String :=
  String.join (List.replicate n s)

/-- **What `mul` gives.**  With a string among the operands, the product of the numbers before the
first one and all numbers after it are counts, where a negative count is as good as zero. -/
inductive MulGives : List Value → Except Cause Value → Prop
  /-- There are at least two operands. -/
  | tooFew {args : List Value} : args.length < 2 →
      MulGives args (.error (.tooFewOperands "mul" args.length))
  /-- Numbers have a product. -/
  | numbers {args : List Value} {xs : List Int} : 2 ≤ args.length → Forall₂ Counts args xs →
      MulGives args (.ok (.int xs.prod))
  /-- Without strings, an empty value is to blame. -/
  | empty {args : List Value} : 2 ≤ args.length → (∀ s, .str s ∉ args) → .empty ∈ args →
      MulGives args (.error (.arithmetic "mul" "NoneType"))
  /-- So is an empty value before the first string, whatever comes after. -/
  | emptyBefore {before after : List Value} {s : String} : 2 ≤ (before ++ .str s :: after).length →
      (∀ t, .str t ∉ before) → .empty ∈ before →
      MulGives (before ++ .str s :: after) (.error (.arithmetic "mul" "NoneType"))
  /-- The string is repeated as often as the counts say, if each of them fits into a word. -/
  | repeated {before after : List Value} {s : String} {xs cs : List Int} :
      2 ≤ (before ++ .str s :: after).length → Forall₂ Counts before xs → Forall₂ Counts after cs →
      (∀ n ∈ xs.prod :: cs, n < 2 ^ 64) →
      MulGives (before ++ .str s :: after)
        (.ok (.str (copies ((xs.prod :: cs).map Int.toNat).prod s)))
  /-- After the string, the first operand that is no number is to blame if all counts before it fit
  into a word. -/
  | misfit {before counts after : List Value} {s : String} {v : Value} {xs cs : List Int} :
      Forall₂ Counts before xs → Forall₂ Counts counts cs → (∀ n ∈ xs.prod :: cs, n < 2 ^ 64) →
      ¬ v.Numeric →
      MulGives (before ++ .str s :: (counts ++ v :: after)) (.error (.arithmetic "mul" v.kind))
  /-- Otherwise the first count that does not is. -/
  | tooMany {before counts after : List Value} {s : String} {xs cs : List Int} :
      2 ≤ (before ++ .str s :: (counts ++ after)).length → Forall₂ Counts before xs →
      Forall₂ Counts counts cs → (∃ n ∈ xs.prod :: cs, 2 ^ 64 ≤ n) →
      MulGives (before ++ .str s :: (counts ++ after)) (.error (.arithmetic "mul" "int"))

/-! #### Texts many times over -/

theorem copies_empty (n : Nat) : copies n "" = "" := by
  apply String.toList_injective
  simp [copies]

theorem copies_copies (m n : Nat) (s : String) : copies m (copies n s) = copies (m * n) s := by
  apply String.toList_injective
  simp only [copies, String.toList_join, List.flatMap_replicate]
  rw [← List.flatten_replicate_replicate, List.flatten_flatten, List.map_replicate]

theorem repeated_eq (s : String) (n : Nat) : Arith.repeated s n = copies n s := by
  unfold Arith.repeated
  split
  · next h => rw [h, copies_empty]
  · rfl

theorem countBound_eq : countBound = 2 ^ 64 :=
  rfl

theorem replicate_of_lt {n : Int} (h : n < 2 ^ 64) (s : String) :
    replicate s n = .ok (.str (copies n.toNat s)) := by
  unfold replicate
  by_cases hneg : n < 0
  · rw [if_pos hneg, Int.toNat_of_nonpos (Int.le_of_lt hneg)]
    rfl
  · rw [if_neg hneg, countBound_eq, if_pos h, repeated_eq]

theorem replicate_of_le {n : Int} (h : 2 ^ 64 ≤ n) (s : String) :
    replicate s n = .error (.arithmetic "mul" "int") := by
  unfold replicate
  rw [countBound_eq, if_neg (by omega), if_neg (Int.not_lt.mpr h)]
  rfl

/-! #### Steps of a product -/

variable {v : Value} {vs before after : List Value} {n : Int} {xs cs : List Int}

theorem times_int_of_counts (h : v.Counts n) (x : Int) :
    times (.int x) v = .ok (.int (x * n)) := by
  cases h <;> rfl

theorem times_str_of_counts (h : v.Counts n) (s : String) : times (.str s) v = replicate s n := by
  cases h <;> rfl

theorem times_str_of_not_numeric (h : ¬ v.Numeric) (s : String) :
    times (.str s) v = .error (.arithmetic "mul" v.kind) := by
  rw [← Value.asInt?_eq_none_iff] at h
  cases v with
  | empty | str t => rfl
  | int i | bool b => cases h

/-- Numbers are multiplied as long as there is no string. -/
theorem foldlM_times_int (h : Forall₂ Counts vs xs) (x : Int) :
    vs.foldlM times (.int x) = .ok (.int (x * xs.prod)) := by
  induction h generalizing x with
  | nil => simp [pure, Except.pure]
  | @cons v n vs xs hv _ ih =>
    rw [List.foldlM_cons, times_int_of_counts hv, List.prod_cons, ← Int.mul_assoc]
    exact ih (x * n)

theorem foldlM_times_int_of_empty (hstr : ∀ s, .str s ∉ vs) (hempty : .empty ∈ vs) (x : Int) :
    vs.foldlM times (.int x) = .error (.arithmetic "mul" "NoneType") := by
  obtain ⟨before, after, rfl, hbefore⟩ := List.eq_append_cons_of_mem hempty
  have hnone : ∀ s, .str s ∉ before := fun s hs => hstr s (List.mem_append_left _ hs)
  obtain ⟨xs, hxs⟩ := Value.exists_counts hnone hbefore
  rw [List.foldlM_append, foldlM_times_int hxs]
  rfl

/-- A string is repeated by one count after the other. -/
theorem foldlM_times_str (h : Forall₂ Counts vs cs) (hcs : ∀ n ∈ cs, n < 2 ^ 64) (s : String) :
    vs.foldlM times (.str s) = .ok (.str (copies (cs.map Int.toNat).prod s)) := by
  induction h generalizing s with
  | nil => simp [copies, pure, Except.pure]
  | @cons v n vs cs hv _ ih =>
    obtain ⟨hn, hcs⟩ := List.forall_mem_cons.mp hcs
    rw [List.foldlM_cons, times_str_of_counts hv, replicate_of_lt hn, List.map_cons, List.prod_cons,
      Nat.mul_comm, ← copies_copies]
    exact ih hcs (copies n.toNat s)

theorem foldlM_times_str_of_misfit (h : Forall₂ Counts vs cs) (hcs : ∀ n ∈ cs, n < 2 ^ 64)
    (hv : ¬ v.Numeric) (s : String) :
    (vs ++ v :: after).foldlM times (.str s) = .error (.arithmetic "mul" v.kind) := by
  rw [List.foldlM_append, foldlM_times_str h hcs]
  change (times _ v >>= fun acc => after.foldlM times acc) = _
  rw [times_str_of_not_numeric hv]
  rfl

theorem foldlM_times_str_of_tooMany (h : Forall₂ Counts vs cs) (hcs : ∃ n ∈ cs, 2 ^ 64 ≤ n)
    (s : String) : (vs ++ after).foldlM times (.str s) = .error (.arithmetic "mul" "int") := by
  induction h generalizing s with
  | nil => simp at hcs
  | @cons v n vs cs hv _ ih =>
    rw [List.cons_append, List.foldlM_cons, times_str_of_counts hv]
    by_cases hn : n < 2 ^ 64
    · have hcs : ∃ n ∈ cs, 2 ^ 64 ≤ n := by
        obtain ⟨k, hk, hle⟩ := hcs
        rcases List.mem_cons.mp hk with rfl | hk
        · exact absurd hn (Int.not_lt.mpr hle)
        · exact ⟨k, hk, hle⟩
      rw [replicate_of_lt hn]
      exact ih hcs _
    · rw [replicate_of_le (Int.not_lt.mp hn)]
      rfl

/-- The first string is repeated by the product of the numbers before it, as by any other count. -/
theorem product_of_str (h : Forall₂ Counts before xs) (s : String) :
    product (before ++ .str s :: after) = (Value.int xs.prod :: after).foldlM times (.str s) := by
  unfold product
  rw [List.foldlM_append, foldlM_times_int h, Int.one_mul]
  rfl

theorem product_of_empty {s : String} (hstr : ∀ t, .str t ∉ before) (hempty : .empty ∈ before) :
    product (before ++ .str s :: after) = .error (.arithmetic "mul" "NoneType") := by
  unfold product
  rw [List.foldlM_append, foldlM_times_int_of_empty hstr hempty]
  rfl

/-! #### Whole products -/

theorem apply_mul {args : List Value} (h : 2 ≤ args.length) : mul.apply args = product args := by
  match args with
  | [] | [_] => exact absurd h (by simp)
  | _ :: _ :: _ => rfl

/-- The rules hold of what is computed. -/
theorem MulGives.apply_eq {args : List Value} {r : Except Cause Value} (h : MulGives args r) :
    mul.apply args = r := by
  cases h with
  | tooFew hlen => exact apply_of_length_lt mul hlen
  | numbers hlen hxs => rw [apply_mul hlen, product, foldlM_times_int hxs, Int.one_mul]
  | empty hlen hstr hempty => rw [apply_mul hlen, product, foldlM_times_int_of_empty hstr hempty]
  | emptyBefore hlen hstr hempty => rw [apply_mul hlen, product_of_empty hstr hempty]
  | repeated hlen hxs hcs hsmall =>
    rw [apply_mul hlen, product_of_str hxs, foldlM_times_str (.cons (.int _) hcs) hsmall]
  | @misfit before counts after s v xs cs hxs hcs hsmall hv =>
    rw [apply_mul (by simp; omega), product_of_str hxs]
    exact foldlM_times_str_of_misfit (.cons (.int _) hcs) hsmall hv s
  | @tooMany before counts after s xs cs hlen hxs hcs hlarge =>
    rw [apply_mul hlen, product_of_str hxs]
    exact foldlM_times_str_of_tooMany (.cons (.int _) hcs) hlarge s

/-- There is no string among values, or there is a first one. -/
theorem strings_cases (args : List Value) : (∀ s, .str s ∉ args) ∨
    ∃ before s after, args = before ++ .str s :: after ∧ ∀ t, .str t ∉ before := by
  induction args with
  | nil => exact Or.inl (by simp)
  | cons v args ih =>
    cases v with
    | str s => exact Or.inr ⟨[], s, args, rfl, by simp⟩
    | empty | int i | bool b =>
      rcases ih with hno | ⟨before, s, after, rfl, hbefore⟩
      · exact Or.inl (by simpa using hno)
      · exact Or.inr ⟨_ :: before, s, after, rfl, by simpa using hbefore⟩

/-- Some rule applies after a string whose count is known. -/
theorem exists_mulGives_of_counts {s : String}
    (hlen : 2 ≤ (before ++ .str s :: after).length) (hxs : Forall₂ Counts before xs) :
    ∃ r, MulGives (before ++ .str s :: after) r := by
  rcases Value.numbers_or_misfit after with ⟨cs, hcs⟩ | ⟨counts, cs, v, rest, rfl, hcs, hv⟩
  · by_cases hsmall : ∀ n ∈ xs.prod :: cs, n < 2 ^ 64
    · exact ⟨_, .repeated hlen hxs hcs hsmall⟩
    · simp only [not_forall, Int.not_lt, exists_prop] at hsmall
      have hgives : MulGives (before ++ .str s :: (after ++ [])) _ :=
        .tooMany (by simpa using hlen) hxs hcs hsmall
      rw [List.append_nil] at hgives
      exact ⟨_, hgives⟩
  · by_cases hsmall : ∀ n ∈ xs.prod :: cs, n < 2 ^ 64
    · exact ⟨_, .misfit hxs hcs hsmall hv⟩
    · simp only [not_forall, Int.not_lt, exists_prop] at hsmall
      exact ⟨_, .tooMany hlen hxs hcs hsmall⟩

/-- Some rule applies to every list of operands. -/
theorem exists_mulGives (args : List Value) : ∃ r, MulGives args r := by
  by_cases hlen : args.length < 2
  · exact ⟨_, .tooFew hlen⟩
  · rw [Nat.not_lt] at hlen
    rcases strings_cases args with hstr | ⟨before, s, after, rfl, hstr⟩
    · by_cases hempty : .empty ∈ args
      · exact ⟨_, .empty hlen hstr hempty⟩
      · obtain ⟨xs, hxs⟩ := Value.exists_counts hstr hempty
        exact ⟨_, .numbers hlen hxs⟩
    · by_cases hempty : .empty ∈ before
      · exact ⟨_, .emptyBefore hlen hstr hempty⟩
      · obtain ⟨xs, hxs⟩ := Value.exists_counts hstr hempty
        exact exists_mulGives_of_counts hlen hxs

/-- The rules say what is computed. -/
theorem apply_mul_eq_iff {args : List Value} {r : Except Cause Value} :
    mul.apply args = r ↔ MulGives args r := by
  refine ⟨?_, MulGives.apply_eq⟩
  rintro rfl
  obtain ⟨r, hr⟩ := exists_mulGives args
  rwa [hr.apply_eq]

end Arith

/-- **Products.**  The function `mul` gives what the rules say and nothing else, and leaves the
console alone. -/
theorem Builtin.call_mul_iff (args : List Value) (r : Except Cause Value) (c c' : Console) :
    (Builtin.arith .mul).call args c = (r, c') ↔ Arith.MulGives args r ∧ c' = c := by
  rw [Builtin.call_arith_eq_iff, Arith.apply_mul_eq_iff]

end Offside
