import Offside.Sample
import Offside.Proofs.Places
import Offside.Proofs.Run.Laws

/-!
# Numbers and their decimal texts

A decimal literal stands for a number as its digits do, with underscores that carry no meaning.
Digits without a needless zero in front are the digits of the number that they are read as, so a
literal that was read from a source is the text of its number but for the underscores.  The text of
any integer is read as that integer, wherever underscores are put.

* **digits are those of the number that they are read as**: `Decimal.toDigits_ofDigitChars`;
* the text of an integer is read as that integer: `Decimal.readInt?_repr`;
* underscores put into a text: `Decimal.Grouped`, `Decimal.literal?_of_grouped`;
* literals of the grammar: `DecText.literal?_eq`;
* **decimal literals denote the number that they spell**: `Decimal.literals_denote`.
-/

namespace Offside

open Text

namespace Decimal

/-! ### Digits -/

section
variable {x : Char} {u : List Char}

theorem isDigit_iff : x.isDigit = true ↔ 48 ≤ x.toNat ∧ x.toNat ≤ 57 := by
  simp only [Char.isDigit, Bool.and_eq_true, decide_eq_true_eq]
  exact Iff.rfl

/-- A digit is the only one of its number. -/
theorem toDigits_of_isDigit (hx : x.isDigit = true) :
    x.toNat - '0'.toNat < 10 ∧ Nat.toDigits 10 (x.toNat - '0'.toNat) = [x] := by
  obtain ⟨hlow, hhigh⟩ := isDigit_iff.mp hx
  have hlt : x.toNat - '0'.toNat < 10 := by
    change x.toNat - 48 < 10
    omega
  refine ⟨hlt, ?_⟩
  rw [Nat.toDigits_of_lt_base hlt, List.cons.injEq]
  refine ⟨Char.toNat_inj.mp ?_, rfl⟩
  rw [Nat.toNat_digitChar_of_lt_ten hlt]
  change 48 + (x.toNat - 48) = x.toNat
  omega

/-- Digits that are read on from a positive number stand after its digits. -/
theorem toDigits_ofDigitChars_of_pos {n : Nat} (hn : 0 < n) (hu : ∀ y ∈ u, y.isDigit = true) :
    Nat.toDigits 10 (Nat.ofDigitChars 10 u n) = Nat.toDigits 10 n ++ u := by
  induction u generalizing n with
  | nil => simp
  | cons y u ih =>
    obtain ⟨hlt, hy⟩ := toDigits_of_isDigit (hu y (by simp))
    have hnext := Nat.toDigits_append_toDigits (by decide : 1 < 10) hn hlt
    rw [Nat.ofDigitChars_cons, ih (by omega) fun z hz => hu z (by simp [hz]), ← hnext, hy]
    simp

/-- **Digits are those of the number that they are read as**, if they do not start with a needless
zero. -/
theorem toDigits_ofDigitChars (hx : x.isDigit = true) (hu : ∀ y ∈ u, y.isDigit = true)
    (hzero : x = '0' → u = []) : Nat.toDigits 10 (Nat.ofDigitChars 10 (x :: u) 0) = x :: u := by
  obtain ⟨-, hdigit⟩ := toDigits_of_isDigit hx
  rw [Nat.ofDigitChars_cons, Nat.mul_zero, Nat.zero_add]
  by_cases h : x = '0'
  · rw [hzero h, Nat.ofDigitChars_nil, hdigit]
  · have hpos : 0 < x.toNat - '0'.toNat := by
      obtain ⟨hlow, -⟩ := isDigit_iff.mp hx
      have hne : x.toNat ≠ '0'.toNat := fun heq => h (Char.toNat_inj.mp heq)
      change x.toNat ≠ 48 at hne
      change 0 < x.toNat - 48
      omega
    rw [toDigits_ofDigitChars_of_pos hpos hu, hdigit, List.singleton_append]

/-! ### Reading integers -/

theorem readNat?_of_isDigit (hu : ∀ y ∈ u, y.isDigit = true) (hne : u ≠ []) :
    readNat? u = some (Nat.ofDigitChars 10 u 0) := by
  unfold readNat?
  rw [if_pos ⟨hne, List.all_eq_true.mpr hu⟩]

/-- A text of digits is read as a number without a sign. -/
theorem readInt?_of_isDigit (hx : x.isDigit = true) (hu : ∀ y ∈ u, y.isDigit = true) :
    readInt? (x :: u) = some ((Nat.ofDigitChars 10 (x :: u) 0 : Nat) : Int) := by
  have hread := readNat?_of_isDigit (List.forall_mem_cons.mpr ⟨hx, hu⟩) (List.cons_ne_nil x u)
  unfold readInt?
  -- A digit is neither of the two signs.
  split
  · next heq =>
    cases heq
    exact absurd hx (by decide)
  · next heq =>
    cases heq
    exact absurd hx (by decide)
  · rw [hread]
    rfl

end

/-- The digits of a number are read as that number. -/
theorem readNat?_toDigits (n : Nat) : readNat? (Nat.toDigits 10 n) = some n := by
  rw [readNat?_of_isDigit (fun y hy => Nat.isDigit_of_mem_toDigits (by decide) (by decide) hy)
    Nat.toDigits_ne_nil, Nat.ofDigitChars_ten_toDigits]

theorem toList_repr_ofNat (n : Nat) : (Int.ofNat n).repr.toList = Nat.toDigits 10 n :=
  Nat.toList_repr

theorem toList_repr_negSucc (n : Nat) :
    (Int.negSucc n).repr.toList = '-' :: Nat.toDigits 10 (n + 1) := by
  change ("-" ++ (n + 1).repr).toList = _
  rw [String.toList_append, Nat.toList_repr]
  rfl

/-- **The text of an integer is read as that integer.** -/
theorem readInt?_repr (i : Int) : readInt? i.repr.toList = some i := by
  cases i with
  | ofNat n =>
    obtain ⟨x, u, hxu⟩ := List.exists_cons_of_ne_nil (Nat.toDigits_ne_nil (n := n) (b := 10))
    have hdigits : ∀ y ∈ x :: u, y.isDigit = true := fun y hy =>
      Nat.isDigit_of_mem_toDigits (by decide) (by decide) (hxu ▸ hy)
    obtain ⟨hx, hu⟩ := List.forall_mem_cons.mp hdigits
    rw [toList_repr_ofNat, hxu, readInt?_of_isDigit hx hu, ← hxu, Nat.ofDigitChars_ten_toDigits]
    rfl
  | negSucc n =>
    rw [toList_repr_negSucc]
    change (readNat? (Nat.toDigits 10 (n + 1))).map (fun k => -(k : Int)) = _
    rw [readNat?_toDigits]
    rfl

/-! ### Underscores -/

/-- The text without its underscores. -/
def spelling (text : String) : String :=
  String.ofList (text.toList.filter (· ≠ '_'))

/-- A text `u` that is `t` with underscores put in at any places. -/
inductive Grouped : (t u : List Char) → Prop
  | nil : Grouped [] []
  | char {x : Char} {t u : List Char} : Grouped t u → Grouped (x :: t) (x :: u)
  | under {t u : List Char} : Grouped t u → Grouped t ('_' :: u)

theorem Grouped.refl : ∀ t : List Char, Grouped t t
  | [] => .nil
  | _ :: t => .char (.refl t)

/-- Taking all underscores out undoes putting some in. -/
theorem Grouped.filter_eq {t u : List Char} (h : Grouped t u) (ht : '_' ∉ t) :
    u.filter (· ≠ '_') = t := by
  induction h with
  | nil => rfl
  | @char x t u _ ih =>
    rw [List.mem_cons, not_or] at ht
    obtain ⟨hne, ht⟩ := ht
    rw [List.filter_cons_of_pos (by simpa using Ne.symm hne), ih ht]
  | under _ ih => rw [List.filter_cons_of_neg (by simp), ih ht]

theorem under_notMem_repr (i : Int) : '_' ∉ i.repr.toList := by
  cases i with
  | ofNat n =>
    rw [toList_repr_ofNat]
    exact Nat.underscore_not_in_toDigits
  | negSucc n =>
    rw [toList_repr_negSucc, List.mem_cons]
    rintro (h | h)
    · cases h
    · exact Nat.underscore_not_in_toDigits h

/-- **The text of an integer denotes it as a literal**, wherever underscores are put. -/
theorem literal?_of_grouped {i : Int} {text : String} (h : Grouped i.repr.toList text.toList) :
    literal? text = some i := by
  unfold literal?
  rw [h.filter_eq (under_notMem_repr i), readInt?_repr]

end Decimal

/-! ### Literals of the grammar -/

theorem isDigit_of_isDigitOrUnder {x : Char} (h : isDigitOrUnder x = true) (hne : x ≠ '_') :
    x.isDigit = true := by
  simp only [isDigitOrUnder, CharClass.contains, Bool.or_eq_true, Bool.and_eq_true,
    decide_eq_true_eq, beq_iff_eq, hne, or_false] at h
  simp only [Char.isDigit, Bool.and_eq_true, decide_eq_true_eq]
  exact h

namespace DecText

variable {t : List Char}

/-- No literal has a needless zero in front. -/
theorem eq_zero_or_head (h : DecText t) : t = ['0'] ∨ t.head? ≠ some '0' := by
  rcases h with rfl | ⟨x, u, rfl, hx, -⟩
  · exact Or.inl rfl
  · refine Or.inr ?_
    rintro ⟨⟩
    exact absurd hx (by decide)

/-- What remains of a literal without its underscores. -/
theorem filter_eq (h : DecText t) : ∃ x u, t.filter (· ≠ '_') = x :: u ∧ x.isDigit = true ∧
    (∀ y ∈ u, y.isDigit = true) ∧ (x = '0' → u = []) := by
  have hdigits : ∀ y ∈ t.filter (· ≠ '_'), y.isDigit = true := by
    intro y hy
    obtain ⟨hmem, hne⟩ := List.mem_filter.mp hy
    exact isDigit_of_isDigitOrUnder (h.chars y hmem) (by simpa using hne)
  rcases h with rfl | ⟨x, u, rfl, hx, -⟩
  · exact ⟨'0', [], rfl, by decide, by simp, fun _ => rfl⟩
  · have hunder : x ≠ '_' := by
      rintro rfl
      exact absurd hx (by decide)
    rw [List.singleton_append, List.filter_cons_of_pos (by simpa using hunder)] at hdigits ⊢
    obtain ⟨hx', hu⟩ := List.forall_mem_cons.mp hdigits
    refine ⟨x, _, rfl, hx', hu, ?_⟩
    -- Only the literal that is a zero alone starts with a zero.
    rintro rfl
    exact absurd hx (by decide)

/-- **A decimal literal of the grammar denotes the number that it spells.** -/
theorem literal?_eq (h : DecText t) : ∃ n : Nat,
    Decimal.literal? (String.ofList t) = some (n : Int) ∧
      n.repr = Decimal.spelling (String.ofList t) := by
  obtain ⟨x, u, hfilter, hx, hu, hzero⟩ := h.filter_eq
  refine ⟨Nat.ofDigitChars 10 (x :: u) 0, ?_, ?_⟩
  · rw [Decimal.literal?, String.toList_ofList, hfilter, Decimal.readInt?_of_isDigit hx hu]
  · rw [Decimal.spelling, String.toList_ofList, hfilter, Nat.repr_eq_ofList_toDigits,
      Decimal.toDigits_ofDigitChars hx hu hzero]

end DecText

/-! ### The values of literals -/

/-- The expression has that value wherever it is evaluated, and evaluating it changes nothing. -/
def Expr.Denotes (e : Expr) (v : Value) : Prop :=
  ∀ (g : Globals) (invoke : Invoke) (ls : Locals) (m : Machine),
    Eval.expr g invoke e ls m = .done v ls m

theorem Expr.denotes_number_iff {text : String} {span : Span} {v : Value} :
    (Expr.number .dec text span).Denotes v ↔ ∃ i, Decimal.literal? text = some i ∧ v = .int i := by
  constructor
  · intro h
    exact (Eval.number_eq_done_iff.mp (h {} (invoke {} 0) [] {})).2.1
  · intro h g invoke ls m
    exact Eval.number_eq_done_iff.mpr ⟨rfl, h, rfl, rfl⟩

theorem Expr.Denotes.unique {e : Expr} {v w : Value} (hv : e.Denotes v) (hw : e.Denotes w) :
    v = w := by
  cases (hv {} (invoke {} 0) [] {}).symm.trans (hw {} (invoke {} 0) [] {})
  rfl

/-- The text of a decimal literal. -/
def Item.decimal? : Item → Option String
  | .expr (.number .dec text _) => some text
  | _ => none

/-- The decimal literals of a program as they are written, in the order of the source. -/
def Program.decimals (p : Program) : List String :=
  p.items.filterMap Item.decimal?

namespace Decimal

/-- A decimal literal of some program that was read. -/
def IsLiteral (text : String) : Prop :=
  ∃ source p, Program.parse source = .ok p ∧ text ∈ p.decimals

section
variable {text text' : String} {span span' : Span} {v v' : Value}

theorem IsLiteral.decText (h : IsLiteral text) : DecText text.toList := by
  obtain ⟨source, p, hparse, hmem⟩ := h
  obtain ⟨i, hi, hdecimal⟩ := List.mem_filterMap.mp hmem
  have hstands := Program.items_standIn hparse i hi
  unfold Item.decimal? at hdecimal
  split at hdecimal
  · obtain ⟨pos, t, -, hwritten⟩ := hstands
    cases hdecimal
    cases hwritten with
    | number hspells =>
      rw [String.toList_ofList]
      exact hspells
  · cases hdecimal

/-- **A literal of a source evaluates to the number that it spells.** -/
theorem IsLiteral.exists_denotes (h : IsLiteral text) : ∃ n : Nat,
    (∀ span, (Expr.number .dec text span).Denotes (.int n)) ∧
      (Value.int n).display = spelling text := by
  obtain ⟨n, hn, hspelling⟩ := h.decText.literal?_eq
  rw [String.ofList_toList] at hn hspelling
  exact ⟨n, fun span => Expr.denotes_number_iff.mpr ⟨n, hn, rfl⟩, hspelling⟩

/-- A literal of a source has no needless zero in front. -/
theorem IsLiteral.eq_zero_or_head (h : IsLiteral text) :
    text = "0" ∨ text.toList.head? ≠ some '0' := by
  rcases h.decText.eq_zero_or_head with hzero | hhead
  · exact Or.inl (String.toList_inj.mp hzero)
  · exact Or.inr hhead

/-- **Literals of sources have the same value if and only if they are spelt alike.** -/
theorem IsLiteral.value_eq_iff (h : IsLiteral text) (h' : IsLiteral text')
    (hv : (Expr.number .dec text span).Denotes v)
    (hv' : (Expr.number .dec text' span').Denotes v') :
    v = v' ↔ spelling text = spelling text' := by
  obtain ⟨n, hn, hspelling⟩ := h.exists_denotes
  obtain ⟨n', hn', hspelling'⟩ := h'.exists_denotes
  rw [hv.unique (hn span), hv'.unique (hn' span'), ← hspelling, ← hspelling']
  constructor
  · intro heq
    rw [heq]
  · intro heq
    have hread : readInt? (Int.repr n).toList = readInt? (Int.repr n').toList :=
      congrArg (fun s => readInt? s.toList) heq
    rw [readInt?_repr, readInt?_repr] at hread
    exact congrArg Value.int (Option.some.inj hread)

end

/-- **Decimal literals denote the number that they spell.**  A literal of a source evaluates,
wherever this is done, to a number that is not negative and is displayed as the literal without its
underscores.  No such literal starts with a needless zero, so that two of them have the same value
if and only if they are spelt alike but for the underscores.  The node made from an integer evaluates
to this integer, also with underscores put anywhere into its text. -/
theorem literals_denote :
    (∀ text, IsLiteral text →
      (∃ n : Nat, (∀ span, (Expr.number .dec text span).Denotes (.int n)) ∧
        (Value.int n).display = spelling text) ∧
      (text = "0" ∨ text.toList.head? ≠ some '0')) ∧
    (∀ text text' span span' v v', IsLiteral text → IsLiteral text' →
      (Expr.number .dec text span).Denotes v → (Expr.number .dec text' span').Denotes v' →
      (v = v' ↔ spelling text = spelling text')) ∧
    ∀ i : Int, (Expr.ofInt i).Denotes (.int i) ∧
      ∀ t text span span', Expr.ofInt i = .number .dec t span → Grouped t.toList text.toList →
        (Expr.number .dec text span').Denotes (.int i) := by
  refine ⟨fun text h => ⟨h.exists_denotes, h.eq_zero_or_head⟩,
    fun text text' span span' v v' h h' hv hv' => h.value_eq_iff h' hv hv', fun i => ⟨?_, ?_⟩⟩
  · exact Expr.denotes_number_iff.mpr ⟨i, literal?_of_grouped (.refl _), rfl⟩
  · intro t text span span' hnode hgrouped
    cases hnode
    exact Expr.denotes_number_iff.mpr ⟨i, literal?_of_grouped hgrouped, rfl⟩

/-- Two literals of one number and a zero in one source, and a negative number with underscores
before its sign, after it and at the end. -/
theorem literals_denote_thousand :
    IsLiteral "1_000" ∧ IsLiteral "10_00" ∧ IsLiteral "0" ∧
    (∃ n : Nat, (∀ span, (Expr.number .dec "1_000" span).Denotes (.int n)) ∧
      (Value.int n).display = "1000") ∧
    spelling "1_000" = spelling "10_00" ∧ spelling "1_000" ≠ spelling "0" ∧
    (Expr.number .dec "_-_1_2_" .initial).Denotes (.int (-12)) := by
  obtain ⟨hread, hsame, hmade⟩ := literals_denote
  have hliteral : ∀ text ∈ ["1_000", "10_00", "0"], IsLiteral text := by
    have h : (Program.parse "def main():\n\tf(1_000, 10_00, 0)\n").toOption.map Program.decimals =
        some ["1_000", "10_00", "0"] := by
      decide +kernel
    obtain ⟨p, hp, hdecimals⟩ := Option.map_eq_some_iff.mp h
    intro text htext
    exact ⟨_, p, Program.parse_eq_ok_of_toOption hp, hdecimals ▸ htext⟩
  have hvalue : ∀ text i, literal? text = some i →
      (Expr.number .dec text .initial).Denotes (.int i) :=
    fun text i h => Expr.denotes_number_iff.mpr ⟨i, h, rfl⟩
  have hthousand := hliteral "1_000" (by simp)
  refine ⟨hthousand, hliteral _ (by simp), hliteral _ (by simp), (hread _ hthousand).1,
    ?_, ?_, ?_⟩
  · exact (hsame _ "10_00" _ _ _ _ hthousand (hliteral _ (by simp)) (hvalue _ 1000 (by decide))
      (hvalue _ 1000 (by decide))).mp rfl
  · intro heq
    have hvalues := (hsame _ "0" _ _ _ _ hthousand (hliteral _ (by simp))
      (hvalue _ 1000 (by decide)) (hvalue _ 0 (by decide))).mpr heq
    cases hvalues
  · have hgrouped : Grouped "-12".toList "_-_1_2_".toList :=
      .under (.char (.under (.char (.under (.char (.under .nil))))))
    exact (hmade (-12)).2 "-12" _ .initial _ rfl hgrouped

end Decimal

end Offside
