import Offside.Proofs.Arithmetic
import Offside.Proofs.NoPanic

/-!
# Equality and order

Equality looks at the numbers that two values count as, and else at the values themselves; the four
comparisons look at two strings or at two numbers, and refuse everything else.  The two fit together,
because both see a value only in its plain form, in which booleans are numbers.  So do all predefined
functions but `print`, which is why values that are equal can stand for each other.

* the plain form: `Value.plain`; equality is sameness of plain forms: `Value.equals_iff`;
* the order of two values: `Value.Ordered`, with its laws `Ordered.swap`, `Ordered.trans` and
  `Ordered.eq_iff`;
* calls on the same plain forms: `Builtin.sameKind_call`;
* **equality and the comparisons make one order**: `Builtin.comparisons_coherent`.
-/

namespace Offside

/-! ### Plain forms -/

namespace Value

/-- The value, with a number in the place of a boolean. -/
def plain : Value → Value
  | bool b => int (if b then 1 else 0)
  | v => v

theorem truth_plain (v : Value) : v.plain.truth = v.truth := by
  rcases v with _ | _ | _ | _ | _ <;> rfl

theorem plain_of_asInt?_eq_none {v : Value} (h : v.asInt? = none) : v.plain = v := by
  cases v with
  | empty | str s => rfl
  | int i | bool b => cases h

theorem plain_of_counts {v : Value} {i : Int} (h : v.Counts i) : v.plain = .int i := by
  cases h <;> rfl

/-- A value counts as one number at most. -/
theorem Counts.unique {v : Value} {i j : Int} (hi : v.Counts i) (hj : v.Counts j) : i = j :=
  Value.int.inj ((plain_of_counts hi).symm.trans (plain_of_counts hj))

/-- **Values are equal if their plain forms are the same.** -/
theorem equals_iff {a b : Value} : a.equals b = true ↔ a.plain = b.plain := by
  unfold equals
  cases ha : a.asInt? with
  | some i =>
    rw [plain_of_counts (asInt?_eq_some_iff.mp ha)]
    cases hb : b.asInt? with
    | some j => simp [plain_of_counts (asInt?_eq_some_iff.mp hb)]
    | none =>
      have hne : ∀ v : Value, v.asInt? = some i → v ≠ b := by
        rintro v hv rfl
        cases hv.symm.trans hb
      simp [plain_of_asInt?_eq_none hb, hne a ha, hne (.int i) rfl]
  | none =>
    rw [plain_of_asInt?_eq_none ha]
    cases hb : b.asInt? with
    | some j =>
      have hne : ∀ v : Value, v.asInt? = some j → a ≠ v := by
        rintro v hv rfl
        cases hv.symm.trans ha
      simp [plain_of_counts (asInt?_eq_some_iff.mp hb), hne b hb, hne (.int j) rfl]
    | none => simp [plain_of_asInt?_eq_none hb]

/-! ### The order of two values -/

/-- **The values that have an order:** two strings, or two numbers. -/
inductive Comparable : Value → Value → Prop
  | strings (s t : String) : Comparable (.str s) (.str t)
  | numbers {a b : Value} : a.Numeric → b.Numeric → Comparable a b

/-- How one value stands to another. -/
inductive Ordered : Value → Value → Ordering → Prop
  | strings {s t : String} {o : Ordering} : Ord.compare s t = o → Ordered (.str s) (.str t) o
  | numbers {a b : Value} {i j : Int} {o : Ordering} : a.Counts i → b.Counts j →
      Ord.compare i j = o → Ordered a b o

theorem order?_of_counts {a b : Value} {i j : Int} (ha : a.Counts i) (hb : b.Counts j) :
    a.order? b = some (Ord.compare i j) := by
  cases ha <;> cases hb <;> rfl

theorem order?_eq_some_iff {a b : Value} {o : Ordering} : a.order? b = some o ↔ Ordered a b o := by
  constructor
  · intro h
    unfold order? at h
    split at h
    · exact .strings (Option.some.inj h)
    · split at h
      · next i j hi hj =>
        exact .numbers (asInt?_eq_some_iff.mp hi) (asInt?_eq_some_iff.mp hj) (Option.some.inj h)
      · cases h
  · rintro (ho | ⟨ha, hb, ho⟩)
    · exact congrArg some ho
    · rw [order?_of_counts ha hb, ho]

theorem comparable_iff {a b : Value} : Comparable a b ↔ ∃ o, a.order? b = some o := by
  simp only [order?_eq_some_iff]
  constructor
  · rintro (_ | ⟨⟨i, hi⟩, ⟨j, hj⟩⟩)
    · exact ⟨_, .strings rfl⟩
    · exact ⟨_, .numbers hi hj rfl⟩
  · rintro ⟨o, _ | ⟨hi, hj, _⟩⟩
    · exact .strings _ _
    · exact .numbers ⟨_, hi⟩ ⟨_, hj⟩

namespace Ordered

variable {a b c : Value} {o : Ordering}

theorem swap (h : Ordered a b o) : Ordered b a o.swap := by
  cases h with
  | strings ho => exact .strings (by rw [← ho, ← Std.OrientedCmp.eq_swap])
  | numbers ha hb ho => exact .numbers hb ha (by rw [← ho, ← Std.OrientedCmp.eq_swap])

/-- **Of values that have an order, the same ones are equal.** -/
theorem eq_iff (h : Ordered a b o) : o = .eq ↔ a.equals b = true := by
  rw [equals_iff]
  cases h with
  | strings ho =>
    rw [← ho, Std.LawfulEqCmp.compare_eq_iff_eq]
    exact (Value.str.injEq ..).symm.to_iff
  | numbers ha hb ho =>
    rw [← ho, Std.LawfulEqCmp.compare_eq_iff_eq, plain_of_counts ha, plain_of_counts hb,
      Value.int.injEq]

theorem trans (hab : Ordered a b .lt) (hbc : Ordered b c .lt) : Ordered a c .lt := by
  cases hab with
  | strings hab =>
    cases hbc with
    | strings hbc => exact .strings (Std.TransCmp.lt_trans hab hbc)
    | numbers hb => cases hb
  | numbers ha hb hab =>
    cases hbc with
    | strings => cases hb
    | numbers hb' hc hbc =>
      cases hb.unique hb'
      exact .numbers ha hc (Std.TransCmp.lt_trans hab hbc)

end Ordered

theorem order?_plain (a b : Value) : a.plain.order? b.plain = a.order? b := by
  cases a <;> cases b <;> rfl

end Value

open List (Forall₂)
open Value (Comparable)

/-! ### Functions on plain forms -/

/-- The same value, or failures of one kind. -/
inductive SameKind : Except Cause Value → Except Cause Value → Prop
  | value (v : Value) : SameKind (.ok v) (.ok v)
  | failure {e e' : Cause} : e.kind = e'.kind → SameKind (.error e) (.error e')

theorem SameKind.refl (r : Except Cause Value) : SameKind r r := by
  cases r with
  | ok v => exact .value v
  | error e => exact .failure rfl

namespace Arith

theorem operand_plain (op : Arith) (v : Value) : op.operand v.plain = op.operand v := by
  cases v <;> rfl

theorem times_plain (acc v : Value) : times acc v.plain = times acc v := by
  cases acc <;> cases v <;> rfl

theorem product_plain (args : List Value) : product (args.map Value.plain) = product args := by
  unfold product
  simp only [List.foldlM_map, times_plain]

theorem mapM_operand_plain (op : Arith) (args : List Value) :
    (args.map Value.plain).mapM op.operand = args.mapM op.operand := by
  rw [List.mapM_map]
  exact congrArg (args.mapM ·) (funext (operand_plain op))

/-- **Arithmetic sees the plain forms of its operands only.** -/
theorem apply_plain (op : Arith) (args : List Value) :
    op.apply (args.map Value.plain) = op.apply args := by
  by_cases hlen : args.length < 2
  · rw [apply_of_length_lt op (by simpa using hlen), apply_of_length_lt op hlen, List.length_map]
  · rw [Nat.not_lt] at hlen
    by_cases hop : op = .mul
    · rw [hop, apply_mul (by simpa using hlen), apply_mul hlen, product_plain]
    · match args, hlen with
      | v :: vs, hlen =>
        have hvs : vs ≠ [] := by
          rintro rfl
          simp at hlen
        rw [List.map_cons, apply_of_ne_mul hop (by simpa using hvs), apply_of_ne_mul hop hvs,
          operand_plain, mapM_operand_plain]

end Arith

/-- Values that are equal have the same length, or none. -/
theorem Value.sameKind_length {a b : Value} (h : a.plain = b.plain) :
    SameKind a.length b.length := by
  cases a with
  | str s =>
    cases b with
    | str t =>
      cases h
      exact .refl _
    | empty | int i | bool x => cases h
  | empty | int i | bool x =>
    cases b with
    | str t => cases h
    | empty | int j | bool y => exact .failure rfl

theorem Comparison.sameKind_apply {a a' b b' : Value} (op : Comparison) (ha : a.plain = a'.plain)
    (hb : b.plain = b'.plain) : SameKind (op.apply a b) (op.apply a' b') := by
  have horder : a.order? b = a'.order? b' := by
    rw [← Value.order?_plain a, ha, hb, Value.order?_plain]
  unfold Comparison.apply
  rw [horder]
  cases a'.order? b' with
  | some o => exact .value _
  | none => exact .failure rfl

namespace Builtin

theorem call_of_arity_ne {b : Builtin} {n : Nat} {args : List Value} (hb : b.arity? = some n)
    (h : args.length ≠ n) (c : Console) :
    b.call args c = (.error (.arity b.name n args.length), c) := by
  have hcall := callAt?_eq b args c
  unfold callAt? at hcall
  rw [hb] at hcall
  simpa [h] using hcall.symm

/-- Values that stand for each other one by one. -/
abbrev Interchange (args args' : List Value) : Prop :=
  Forall₂ (fun a b => a.plain = b.plain) args args'

variable {b : Builtin} {args args' : List Value}

theorem sameKind_of_arity {n : Nat} (hb : b.arity? = some n) (hlen : args.length = n)
    (h : Interchange args args') (c : Console) :
    SameKind (b.call args c).1 (b.call args' c).1 ∧ (b.call args c).2 = (b.call args' c).2 := by
  cases b with
  | print | arith op => cases hb
  | input =>
    cases hb
    rcases h with _ | _
    · exact ⟨.refl _, rfl⟩
    · cases hlen
  | length =>
    cases hb
    rcases h with _ | ⟨hv, _ | _⟩ <;> cases hlen
    exact ⟨Value.sameKind_length hv, rfl⟩
  | eq =>
    cases hb
    rcases h with _ | @⟨v, v', _, _, hv, _ | @⟨w, w', _, _, hw, _ | _⟩⟩ <;> cases hlen
    have hequals : v.equals w = v'.equals w' := by
      rw [Bool.eq_iff_iff, Value.equals_iff, Value.equals_iff, hv, hw]
    change SameKind (.ok (.bool (v.equals w))) (.ok (.bool (v'.equals w'))) ∧ c = c
    rw [hequals]
    exact ⟨.value _, rfl⟩
  | compare op =>
    cases hb
    rcases h with _ | ⟨hv, _ | ⟨hw, _ | _⟩⟩ <;> cases hlen
    exact ⟨op.sameKind_apply hv hw, rfl⟩

/-- **Values that are equal can stand for each other in every call** but that of `print`, which shows
the difference. -/
theorem sameKind_call (hb : b ≠ .print) (h : Interchange args args') (c : Console) :
    SameKind (b.call args c).1 (b.call args' c).1 ∧ (b.call args c).2 = (b.call args' c).2 := by
  cases hn : b.arity? with
  | none =>
    cases b with
    | print => exact absurd rfl hb
    | arith op =>
      have hplain : args.map Value.plain = args'.map Value.plain := by
        simpa [← List.forall₂_eq_eq_eq] using h
      have happly : op.apply args = op.apply args' := by
        rw [← Arith.apply_plain, hplain, Arith.apply_plain]
      change SameKind (op.apply args) (op.apply args') ∧ c = c
      rw [happly]
      exact ⟨.refl _, rfl⟩
    | input | length | eq | compare op => cases hn
  | some n =>
    by_cases hargs : args.length = n
    · exact sameKind_of_arity hn hargs h c
    · rw [call_of_arity_ne hn hargs, call_of_arity_ne hn (h.length_eq ▸ hargs)]
      exact ⟨.failure rfl, rfl⟩

/-! ### One order -/

/-- The function gives this truth value on two values, and leaves the console alone. -/
def Says (b : Builtin) (r : Bool) (v w : Value) : Prop :=
  ∀ c, b.call [v, w] c = (.ok (.bool r), c)

variable {r : Bool} {v w : Value}

theorem says_eq_iff : eq.Says r v w ↔ v.equals w = r := by
  have hcall : ∀ c, eq.call [v, w] c = (.ok (.bool (v.equals w)), c) := fun _ => rfl
  simp [Says, hcall]

theorem says_compare_iff {op : Comparison} {o : Ordering} (h : v.order? w = some o) :
    (compare op).Says r v w ↔ op.accepts o = r := by
  have hcall : ∀ c, (compare op).call [v, w] c = (.ok (.bool (op.accepts o)), c) := by
    intro c
    change (op.apply v w, c) = _
    rw [Comparison.apply, h]
  simp [Says, hcall]

theorem exists_order_of_says {op : Comparison} (h : (compare op).Says r v w) :
    ∃ o, v.order? w = some o := by
  have hcall : op.apply v w = .ok (.bool r) := congrArg Prod.fst (h {})
  unfold Comparison.apply at hcall
  cases ho : v.order? w with
  | some o => exact ⟨o, rfl⟩
  | none =>
    rw [ho] at hcall
    cases hcall

theorem call_compare_of_not_comparable (h : ¬ Comparable v w) (op : Comparison) (c : Console) :
    (compare op).call [v, w] c = (.error (.unsupportedComparison op.name v.kind w.kind), c) := by
  have horder : v.order? w = none := by
    rw [Option.eq_none_iff_forall_ne_some]
    exact fun o ho => h (Value.comparable_iff.mpr ⟨o, ho⟩)
  change (op.apply v w, c) = _
  rw [Comparison.apply, horder]

/-- **What is said of two values that have an order:** each comparison says something, exactly one of
`lt`, `eq` and `gt` holds, and the other comparisons follow from these. -/
structure Arranges (v w : Value) : Prop where
  answers : ∀ op, ∃ r, (compare op).Says r v w
  one : ∃! b, b ∈ [compare .lt, eq, compare .gt] ∧ b.Says true v w
  leq : (compare .leq).Says true v w ↔ (compare .lt).Says true v w ∨ eq.Says true v w
  geq : (compare .geq).Says true v w ↔ (compare .gt).Says true v w ∨ eq.Says true v w
  gt : ∀ r, (compare .gt).Says r v w ↔ (compare .lt).Says r w v

theorem arranges_of_comparable (h : Comparable v w) : Arranges v w := by
  obtain ⟨o, ho⟩ := Value.comparable_iff.mp h
  have hordered := Value.order?_eq_some_iff.mp ho
  have hswap : w.order? v = some o.swap := Value.order?_eq_some_iff.mpr hordered.swap
  have heq : eq.Says true v w ↔ o = .eq := says_eq_iff.trans hordered.eq_iff.symm
  refine ⟨fun op => ⟨op.accepts o, (says_compare_iff ho).mpr rfl⟩, ?_, ?_, ?_, ?_⟩
  · cases o
    · refine ⟨compare .lt, ?_, ?_⟩ <;> simp [says_compare_iff ho, heq, Comparison.accepts]
    · refine ⟨eq, ?_, ?_⟩ <;> simp [says_compare_iff ho, heq, Comparison.accepts]
    · refine ⟨compare .gt, ?_, ?_⟩ <;> simp [says_compare_iff ho, heq, Comparison.accepts]
  · rw [says_compare_iff ho, says_compare_iff ho, heq]
    cases o <;> simp [Comparison.accepts]
  · rw [says_compare_iff ho, says_compare_iff ho, heq]
    cases o <;> simp [Comparison.accepts]
  · intro r
    rw [says_compare_iff ho, says_compare_iff hswap]
    cases o <;> rfl

theorem says_lt_trans {u v w : Value} (huv : (compare .lt).Says true u v)
    (hvw : (compare .lt).Says true v w) : (compare .lt).Says true u w := by
  obtain ⟨o, ho⟩ := exists_order_of_says huv
  obtain ⟨o', ho'⟩ := exists_order_of_says hvw
  obtain rfl : o = .lt := by simpa [Comparison.accepts] using (says_compare_iff ho).mp huv
  obtain rfl : o' = .lt := by simpa [Comparison.accepts] using (says_compare_iff ho').mp hvw
  have htrans := (Value.order?_eq_some_iff.mp ho).trans (Value.order?_eq_some_iff.mp ho')
  exact (says_compare_iff (Value.order?_eq_some_iff.mpr htrans)).mpr rfl

theorem says_eq_iff_plain : eq.Says true v w ↔ v.plain = w.plain :=
  says_eq_iff.trans Value.equals_iff

theorem equivalence_says_eq : Equivalence (eq.Says true) where
  refl _ := says_eq_iff_plain.mpr rfl
  symm h := says_eq_iff_plain.mpr (says_eq_iff_plain.mp h).symm
  trans huv hvw := says_eq_iff_plain.mpr ((says_eq_iff_plain.mp huv).trans (says_eq_iff_plain.mp hvw))

/-- A value can stand for another at any place among the arguments. -/
theorem interchange_of_says_eq (h : eq.Says true v w) (before after : List Value) :
    Interchange (before ++ v :: after) (before ++ w :: after) := by
  have hsame : ∀ vs : List Value, Interchange vs vs := fun vs => List.forall₂_same.mpr fun _ _ => rfl
  exact List.rel_append (hsame before) (.cons (says_eq_iff_plain.mp h) (hsame after))

/-- **Equality and the comparisons make one order.**  Equality is an equivalence and always decided.
The comparisons say something of two strings or two numbers, where they go together with equality, and
all fail on other values.  Less is transitive.  Values that are equal are both true or both not, and
one can be put for the other anywhere among the arguments of every function but `print`: the value is
the same, or the kind of the failure. -/
theorem comparisons_coherent :
    Equivalence (eq.Says true) ∧ (∀ v w, ∃ r, eq.Says r v w) ∧
    (∀ v w, Comparable v w → Arranges v w) ∧
    (∀ v w, ¬ Comparable v w → ∀ op c, (compare op).call [v, w] c =
      (.error (.unsupportedComparison op.name v.kind w.kind), c)) ∧
    (∀ u v w, (compare .lt).Says true u v → (compare .lt).Says true v w →
      (compare .lt).Says true u w) ∧
    ∀ v w, eq.Says true v w → v.truth = w.truth ∧ ∀ b ≠ Builtin.print, ∀ before after c,
      SameKind (b.call (before ++ v :: after) c).1 (b.call (before ++ w :: after) c).1 ∧
      (b.call (before ++ v :: after) c).2 = (b.call (before ++ w :: after) c).2 := by
  refine ⟨equivalence_says_eq, fun v w => ⟨_, says_eq_iff.mpr rfl⟩,
    fun v w => arranges_of_comparable, fun v w => call_compare_of_not_comparable,
    fun u v w => says_lt_trans, fun v w h => ⟨?_, fun b hb before after c => ?_⟩⟩
  · rw [← Value.truth_plain v, says_eq_iff_plain.mp h, Value.truth_plain]
  · exact sameKind_call hb (interchange_of_says_eq h before after) c

/-- The boolean `true` and the number one: both repeat a string once, and neither has an order with a
string. -/
theorem comparisons_coherent_one :
    SameKind ((arith .mul).call [.str "ab", .bool true] {}).1
      ((arith .mul).call [.str "ab", .int 1] {}).1 ∧
    SameKind ((compare .lt).call [.bool true, .str "ab"] {}).1
      ((compare .lt).call [.int 1, .str "ab"] {}).1 ∧
    Arranges (.bool true) (.int 2) := by
  obtain ⟨-, -, harranges, -, -, hcongr⟩ := comparisons_coherent
  have heq : eq.Says true (.bool true) (.int 1) := fun _ => rfl
  obtain ⟨-, hcalls⟩ := hcongr _ _ heq
  exact ⟨(hcalls (arith .mul) (by decide) [.str "ab"] [] {}).1,
    (hcalls (compare .lt) (by decide) [] [.str "ab"] {}).1,
    harranges _ _ (.numbers ⟨1, .true⟩ ⟨2, .int 2⟩)⟩

end Builtin

end Offside
