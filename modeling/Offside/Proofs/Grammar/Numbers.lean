import Offside.Proofs.Grammar.Laws
import Offside.Syntax

/-!
# Number literals

What the rules for number literals take, as plain predicates on texts (`NumberKind.Spells`), one for
each notation.  A rule takes only texts of its notation, and takes such a text in full where the text
after it starts with none of the characters of numbers (`NumberEnd`).

* `takes_number_sound`, `takes_number`: the two directions;
* `refuses_number_of_before`: a rule that is tried before the right one refuses the literal.
-/

namespace Offside

open Text Pattern

/-! ### The notations -/

/-- Digits, each of which may have an underscore before it. -/
inductive MoreDigits : List Char → Prop
  | nil : MoreDigits []
  | digit {x : Char} {u : List Char} : CharClass.digit.contains x = true → MoreDigits u →
      MoreDigits (x :: u)
  | under {x : Char} {u : List Char} : CharClass.digit.contains x = true → MoreDigits u →
      MoreDigits ('_' :: x :: u)

/-- At least one digit, with single underscores between digits. -/
def Digits (t : List Char) : Prop :=
  ∃ x u, t = [x] ++ u ∧ CharClass.digit.contains x = true ∧ MoreDigits u

/-- An exponent with its sign. -/
def Exponent (t : List Char) : Prop :=
  ∃ x s u, t = [x] ++ (s ++ u) ∧ (x = 'e' ∨ x = 'E') ∧ (s = [] ∨ s = ['+'] ∨ s = ['-']) ∧ Digits u

/-- Digits with a point before, between or after them. -/
def Pointed (t : List Char) : Prop :=
  (∃ a b, t = a ++ (['.'] ++ b) ∧ Digits a ∧ (b = [] ∨ Digits b)) ∨ ∃ b, t = ['.'] ++ b ∧ Digits b

/-- A number with a point, an exponent or both. -/
def FloatText (t : List Char) : Prop :=
  (∃ a b, t = a ++ b ∧ Pointed a ∧ (b = [] ∨ Exponent b)) ∨ ∃ a b, t = a ++ b ∧ Digits a ∧ Exponent b

/-- A number with the mark of imaginary numbers. -/
def ImagText (t : List Char) : Prop :=
  ∃ a x, t = a ++ [x] ∧ (FloatText a ∨ Digits a) ∧ (x = 'j' ∨ x = 'J')

/-- Zero, or digits that do not start with a zero. -/
def DecText (t : List Char) : Prop :=
  t = ['0'] ∨ ∃ x u, t = [x] ++ u ∧ CharClass.nonzeroDigit.contains x = true ∧ MoreDigits u

/-- A zero, a letter, and digits or underscores. -/
def BasedText (lower upper : Char) (K : CharClass) (t : List Char) : Prop :=
  ∃ x u, t = ['0'] ++ ([x] ++ u) ∧ (x = lower ∨ x = upper) ∧
    ∀ y ∈ u, (CharClass.either K (.just '_')).contains y = true

/-- **The texts of a notation.** -/
def NumberKind.Spells : NumberKind → List Char → Prop
  | dec => DecText
  | hex => BasedText 'x' 'X' .hexDigit
  | oct => BasedText 'o' 'O' .octDigit
  | bin => BasedText 'b' 'B' .binDigit
  | float => FloatText
  | imag => ImagText

/-- The rule of a notation. -/
def NumberKind.rule : NumberKind → Rule
  | dec => .decNumber
  | hex => .hexNumber
  | oct => .octNumber
  | bin => .binNumber
  | float => .floatNumber
  | imag => .imagNumber

/-- The characters that number literals are made of. -/
def isNumeral (x : Char) : Bool :=
  x.isAlphanum || x == '_' || x == '.' || x == '+' || x == '-'

/-- A text that does not go on as a number literal. -/
def NumberEnd (k : List Char) : Prop :=
  ∀ x, k.head? = some x → isNumeral x = false

/-! ### Which characters a notation uses -/

/-- Digits and underscores. -/
def isDigitOrUnder (x : Char) : Bool :=
  CharClass.digit.contains x || x == '_'

/-- Digits, underscores, and what makes a float number. -/
def isFloatChar (x : Char) : Bool :=
  isDigitOrUnder x || x == '.' || x == 'e' || x == 'E' || x == '+' || x == '-'

theorem MoreDigits.chars {t : List Char} (h : MoreDigits t) : ∀ x ∈ t, isDigitOrUnder x = true := by
  induction h with
  | nil => simp
  | digit hx _ ih => simpa [isDigitOrUnder, hx] using ih
  | under hx _ ih => simpa [isDigitOrUnder, hx] using ih

theorem Digits.chars {t : List Char} (h : Digits t) : ∀ x ∈ t, isDigitOrUnder x = true := by
  obtain ⟨x, u, rfl, hx, hu⟩ := h
  simpa [isDigitOrUnder, hx] using hu.chars

theorem DecText.chars {t : List Char} (h : DecText t) : ∀ x ∈ t, isDigitOrUnder x = true := by
  rcases h with rfl | ⟨x, u, rfl, hx, hu⟩
  · exact List.all_eq_true.mp (by decide)
  · have hd : isDigitOrUnder x = true := by
      simp only [CharClass.contains, Bool.and_eq_true, decide_eq_true_eq] at hx
      simp only [isDigitOrUnder, CharClass.contains, Bool.or_eq_true, Bool.and_eq_true,
        decide_eq_true_eq]
      exact Or.inl ⟨Char.le_trans (by decide) hx.1, hx.2⟩
    simpa [hd] using hu.chars

theorem isFloatChar_of_isDigitOrUnder {x : Char} (h : isDigitOrUnder x = true) :
    isFloatChar x = true := by
  simp [isFloatChar, h]

theorem Exponent.chars {t : List Char} (h : Exponent t) : ∀ x ∈ t, isFloatChar x = true := by
  obtain ⟨x, s, u, rfl, hx, hs, hu⟩ := h
  intro y hy
  simp only [List.mem_append, List.mem_singleton] at hy
  rcases hy with rfl | hy | hy
  · rcases hx with rfl | rfl <;> decide
  · rcases hs with rfl | rfl | rfl
    · cases hy
    · rw [List.mem_singleton.mp hy]; decide
    · rw [List.mem_singleton.mp hy]; decide
  · exact isFloatChar_of_isDigitOrUnder (hu.chars y hy)

theorem Pointed.chars {t : List Char} (h : Pointed t) : ∀ x ∈ t, isFloatChar x = true := by
  intro y hy
  rcases h with ⟨a, b, rfl, ha, hb⟩ | ⟨b, rfl, hb⟩
  · simp only [List.mem_append, List.mem_singleton] at hy
    rcases hy with hy | rfl | hy
    · exact isFloatChar_of_isDigitOrUnder (ha.chars y hy)
    · decide
    · rcases hb with rfl | hb
      · cases hy
      · exact isFloatChar_of_isDigitOrUnder (hb.chars y hy)
  · simp only [List.mem_append, List.mem_singleton] at hy
    rcases hy with rfl | hy
    · decide
    · exact isFloatChar_of_isDigitOrUnder (hb.chars y hy)

theorem FloatText.chars {t : List Char} (h : FloatText t) : ∀ x ∈ t, isFloatChar x = true := by
  intro y hy
  rcases h with ⟨a, b, rfl, ha, hb⟩ | ⟨a, b, rfl, ha, hb⟩
  · rcases List.mem_append.mp hy with hy | hy
    · exact ha.chars y hy
    · rcases hb with rfl | hb
      · cases hy
      · exact hb.chars y hy
  · rcases List.mem_append.mp hy with hy | hy
    · exact isFloatChar_of_isDigitOrUnder (ha.chars y hy)
    · exact hb.chars y hy

/-- A float number has a character that no run of digits has. -/
theorem FloatText.exists_mark {t : List Char} (h : FloatText t) :
    ∃ x ∈ t, isDigitOrUnder x = false := by
  have hexp : ∀ {b}, Exponent b → ∃ x ∈ b, isDigitOrUnder x = false := by
    rintro b ⟨x, s, u, rfl, hx, -⟩
    refine ⟨x, by simp, ?_⟩
    rcases hx with rfl | rfl <;> decide
  rcases h with ⟨a, b, rfl, ⟨c, d, rfl, -⟩ | ⟨d, rfl, -⟩, -⟩ | ⟨a, b, rfl, -, hb⟩
  · exact ⟨'.', by simp, by decide⟩
  · exact ⟨'.', by simp, by decide⟩
  · obtain ⟨x, hx, hm⟩ := hexp hb
    exact ⟨x, by simp [hx], hm⟩

theorem isNumeral_of_isFloatChar {x : Char} (h : isFloatChar x = true) : isNumeral x = true := by
  simp only [isFloatChar, isDigitOrUnder, CharClass.contains, Bool.or_eq_true, beq_iff_eq,
    Bool.and_eq_true, decide_eq_true_eq] at h
  rcases h with ((((((⟨h₁, h₂⟩ | rfl) | rfl) | rfl) | rfl) | rfl) | rfl)
  · have : x.isDigit = true := by
      simp only [Char.isDigit, ge_iff_le, Bool.and_eq_true, decide_eq_true_eq]
      exact ⟨h₁, h₂⟩
    simp [isNumeral, Char.isAlphanum, this]
  all_goals decide

/-! ### Taking digits -/

/-- A text that does not go on with digits. -/
def DigitsEnd (k : List Char) : Prop :=
  ∀ x, k.head? = some x → isDigitOrUnder x = false

theorem DigitsEnd.stops {k : List Char} (h : DigitsEnd k) : Stops .digit k := by
  intro x hx
  have := h x hx
  simp only [isDigitOrUnder, Bool.or_eq_false_iff] at this
  exact this.1

theorem DigitsEnd.cons {x : Char} {k : List Char} (h : isDigitOrUnder x = false) :
    DigitsEnd (x :: k) := by
  intro y hy
  cases hy
  exact h

theorem NumberEnd.digitsEnd {k : List Char} (h : NumberEnd k) : DigitsEnd k := by
  intro x hx
  rw [← Bool.not_eq_true]
  intro hd
  have hn := isNumeral_of_isFloatChar (isFloatChar_of_isDigitOrUnder hd)
  rw [h x hx] at hn
  cases hn

theorem Exponent.digitsEnd {t k : List Char} (h : Exponent t) :
    DigitsEnd (t ++ k) ∧ (t ++ k).head? ≠ some '.' := by
  obtain ⟨x, s, u, rfl, hx, -⟩ := h
  rcases hx with rfl | rfl
  · exact ⟨.cons (by decide), by simp⟩
  · exact ⟨.cons (by decide), by simp⟩

namespace Pattern

variable {ind : List (List Char)} {pos : Nat} {t k cs : List Char} {ns : List Node}

/-- A digit that may have an underscore before it. -/
def digitItem : Pattern := seq (opt (char '_')) (one .digit)

theorem refuses_digitItem (hk : DigitsEnd k) : digitItem.Refuses ind pos k := by
  unfold digitItem
  rw [refuses_seq_iff (by rfl)]
  refine Or.inr ⟨[], k, [], rfl, takes_opt_iff.mpr (Or.inr ⟨?_, rfl, rfl⟩), ?_⟩
  · rw [refuses_char_iff]
    intro hx
    cases hk _ hx
  · rw [refuses_one_iff]
    exact hk.stops

theorem takes_moreDigits_sound (h : moreDigits.Takes ind pos t k ns) : MoreDigits t ∧ ns = [] := by
  have h' : Repeats digitItem ind k pos t ns := (takes_star_iff (by rfl) (by rfl)).mp h
  induction h' with
  | done _ => exact ⟨.nil, rfl⟩
  | more h₁ h₂ ih =>
    obtain ⟨hu, rfl⟩ := ih ((takes_star_iff (by rfl) (by rfl)).mpr h₂)
    obtain ⟨_, _, _, _, rfl, rfl, h₃, h₄⟩ := (takes_seq_iff (by rfl)).mp h₁
    obtain ⟨x, rfl, hx, rfl⟩ := takes_one_iff.mp h₄
    rcases takes_opt_iff.mp h₃ with h₃ | ⟨-, rfl, rfl⟩
    · obtain ⟨rfl, rfl⟩ := takes_char_iff.mp h₃
      exact ⟨.under hx hu, rfl⟩
    · exact ⟨.digit hx hu, rfl⟩

theorem takes_moreDigits (ht : MoreDigits t) (hk : DigitsEnd k) :
    moreDigits.Takes ind pos t k [] := by
  refine (takes_star_iff (by rfl) (by rfl)).mpr ?_
  induction ht generalizing pos with
  | nil => exact .done (refuses_digitItem hk)
  | @digit x u hx _ ih =>
    refine .more (a := [x]) (m := []) (Takes.seq (a := []) (m := []) ?_ ?_) ih
    · refine takes_opt_iff.mpr (Or.inr ⟨?_, rfl, rfl⟩)
      rw [refuses_char_iff]
      rintro ⟨⟩
      cases hx
    · exact takes_one_iff.mpr ⟨x, rfl, hx, rfl⟩
  | @under x u hx _ ih =>
    refine .more (a := ['_', x]) (m := []) (Takes.seq (a := ['_']) (m := []) ?_ ?_) ih
    · exact takes_opt_iff.mpr (Or.inl (takes_char_iff.mpr ⟨rfl, rfl⟩))
    · exact takes_one_iff.mpr ⟨x, rfl, hx, rfl⟩

theorem takes_digits_sound (h : digits.Takes ind pos t k ns) : Digits t ∧ ns = [] := by
  obtain ⟨_, u, _, _, rfl, rfl, h₁, h₂⟩ := (takes_seq_iff (by rfl)).mp h
  obtain ⟨x, rfl, hx, rfl⟩ := takes_one_iff.mp h₁
  obtain ⟨hu, rfl⟩ := takes_moreDigits_sound h₂
  exact ⟨⟨x, u, rfl, hx, hu⟩, rfl⟩

theorem takes_digits (ht : Digits t) (hk : DigitsEnd k) : digits.Takes ind pos t k [] := by
  obtain ⟨x, u, rfl, hx, hu⟩ := ht
  exact Takes.seq (m := []) (takes_one_iff.mpr ⟨x, rfl, hx, rfl⟩) (takes_moreDigits hu hk)

theorem refuses_digits (hk : Stops .digit cs) : digits.Refuses ind pos cs := by
  unfold digits
  rw [refuses_seq_iff (by rfl), refuses_one_iff]
  exact Or.inl hk

theorem takes_eitherCase_iff {x y : Char} :
    (eitherCase x y).Takes ind pos t k ns ↔ (t = [x] ∨ t = [y]) ∧ ns = [] := by
  unfold eitherCase
  simp only [takes_alt_iff, takes_char_iff, refuses_char_iff]
  constructor
  · rintro (⟨rfl, rfl⟩ | ⟨-, rfl, rfl⟩)
    · exact ⟨Or.inl rfl, rfl⟩
    · exact ⟨Or.inr rfl, rfl⟩
  · rintro ⟨rfl | rfl, rfl⟩
    · exact Or.inl ⟨rfl, rfl⟩
    · by_cases hxy : y = x
      · subst hxy
        exact Or.inl ⟨rfl, rfl⟩
      · exact Or.inr ⟨by simpa using hxy, rfl, rfl⟩

theorem refuses_eitherCase_iff {x y : Char} :
    (eitherCase x y).Refuses ind pos cs ↔ cs.head? ≠ some x ∧ cs.head? ≠ some y := by
  unfold eitherCase
  rw [refuses_alt_iff, refuses_char_iff, refuses_char_iff]

/-! ### Taking float numbers -/

/-- The sign of an exponent. -/
def sign : Pattern := opt (alt (char '+') (char '-'))

theorem takes_sign_sound (h : sign.Takes ind pos t k ns) :
    (t = [] ∨ t = ['+'] ∨ t = ['-']) ∧ ns = [] := by
  rcases takes_opt_iff.mp h with h | ⟨-, rfl, rfl⟩
  · rcases takes_alt_iff.mp h with h | ⟨-, h⟩
    · obtain ⟨rfl, rfl⟩ := takes_char_iff.mp h
      exact ⟨Or.inr (Or.inl rfl), rfl⟩
    · obtain ⟨rfl, rfl⟩ := takes_char_iff.mp h
      exact ⟨Or.inr (Or.inr rfl), rfl⟩
  · exact ⟨Or.inl rfl, rfl⟩

theorem takes_exponent_sound (h : exponent.Takes ind pos t k ns) : Exponent t ∧ ns = [] := by
  obtain ⟨_, _, _, _, rfl, rfl, h₁, h₂⟩ := (takes_seq_iff (by rfl)).mp h
  obtain ⟨hx, rfl⟩ := takes_eitherCase_iff.mp h₁
  obtain ⟨s, u, _, _, rfl, rfl, h₃, h₄⟩ := (takes_seq_iff (by rfl)).mp h₂
  obtain ⟨hu, rfl⟩ := takes_digits_sound h₄
  obtain ⟨hs, rfl⟩ := takes_sign_sound h₃
  rcases hx with rfl | rfl
  · exact ⟨⟨_, s, u, rfl, Or.inl rfl, hs, hu⟩, rfl⟩
  · exact ⟨⟨_, s, u, rfl, Or.inr rfl, hs, hu⟩, rfl⟩

theorem takes_sign {s : List Char} (hs : s = [] ∨ s = ['+'] ∨ s = ['-']) (hk : Digits k) :
    sign.Takes ind pos s (k ++ cs) [] := by
  rcases hs with rfl | rfl | rfl
  · obtain ⟨x, u, rfl, hx, -⟩ := hk
    refine takes_opt_iff.mpr (Or.inr ⟨?_, rfl, rfl⟩)
    rw [refuses_alt_iff, refuses_char_iff, refuses_char_iff]
    constructor
    · rintro ⟨⟩
      cases hx
    · rintro ⟨⟩
      cases hx
  · exact takes_opt_iff.mpr (Or.inl (takes_alt_iff.mpr (Or.inl (takes_char_iff.mpr ⟨rfl, rfl⟩))))
  · refine takes_opt_iff.mpr (Or.inl (takes_alt_iff.mpr (Or.inr ⟨?_, takes_char_iff.mpr ⟨rfl, rfl⟩⟩)))
    rw [refuses_char_iff]
    simp

theorem takes_exponent (ht : Exponent t) (hk : DigitsEnd k) : exponent.Takes ind pos t k [] := by
  obtain ⟨x, s, u, rfl, hx, hs, hu⟩ := ht
  refine Takes.seq (m := []) (takes_eitherCase_iff.mpr ⟨?_, rfl⟩) ?_
  · rcases hx with rfl | rfl
    · exact Or.inl rfl
    · exact Or.inr rfl
  · exact Takes.seq (p := sign) (m := []) (takes_sign hs hu) (takes_digits hu hk)

theorem refuses_exponent (h : cs.head? ≠ some 'e' ∧ cs.head? ≠ some 'E') :
    exponent.Refuses ind pos cs := by
  change (seq _ _).Refuses ind pos cs
  rw [refuses_seq_iff (by rfl), refuses_eitherCase_iff]
  exact Or.inl h

/-- Digits with a point before, between or after them. -/
def pointed : Pattern := alt (all [digits, char '.', opt digits]) (seq (char '.') digits)

theorem takes_pointed_sound (h : pointed.Takes ind pos t k ns) : Pointed t ∧ ns = [] := by
  rcases takes_alt_iff.mp h with h | ⟨-, h⟩
  · obtain ⟨a, _, _, _, rfl, rfl, h₁, h₂⟩ := (takes_seq_iff (by rfl)).mp h
    obtain ⟨ha, rfl⟩ := takes_digits_sound h₁
    obtain ⟨_, b, _, _, rfl, rfl, h₃, h₄⟩ := (takes_seq_iff (by rfl)).mp h₂
    obtain ⟨rfl, rfl⟩ := takes_char_iff.mp h₃
    rcases takes_opt_iff.mp h₄ with h₄ | ⟨-, rfl, rfl⟩
    · obtain ⟨hb, rfl⟩ := takes_digits_sound h₄
      exact ⟨Or.inl ⟨a, b, rfl, ha, Or.inr hb⟩, rfl⟩
    · exact ⟨Or.inl ⟨a, [], rfl, ha, Or.inl rfl⟩, rfl⟩
  · obtain ⟨_, b, _, _, rfl, rfl, h₁, h₂⟩ := (takes_seq_iff (by rfl)).mp h
    obtain ⟨rfl, rfl⟩ := takes_char_iff.mp h₁
    obtain ⟨hb, rfl⟩ := takes_digits_sound h₂
    exact ⟨Or.inr ⟨b, rfl, hb⟩, rfl⟩

theorem takes_pointed (ht : Pointed t) (hk : DigitsEnd k) : pointed.Takes ind pos t k [] := by
  rcases ht with ⟨a, b, rfl, ha, hb⟩ | ⟨b, rfl, hb⟩
  · refine takes_alt_iff.mpr (Or.inl ?_)
    refine Takes.seq (m := []) (takes_digits ha (.cons (by decide))) ?_
    refine Takes.seq (m := []) (takes_char_iff.mpr ⟨rfl, rfl⟩) ?_
    rcases hb with rfl | hb
    · exact takes_opt_iff.mpr (Or.inr ⟨refuses_digits hk.stops, rfl, rfl⟩)
    · exact takes_opt_iff.mpr (Or.inl (takes_digits hb hk))
  · refine takes_alt_iff.mpr (Or.inr ⟨?_, ?_⟩)
    · change (seq digits _).Refuses ind pos _
      rw [refuses_seq_iff (by rfl)]
      refine Or.inl (refuses_digits ?_)
      intro x hx
      cases hx
      decide
    · exact Takes.seq (m := []) (takes_char_iff.mpr ⟨rfl, rfl⟩) (takes_digits hb hk)

/-- Digits that are followed neither by a point nor by more digits do not start a pointed number. -/
theorem refuses_pointed (ht : Digits t) (hk : DigitsEnd k) (hdot : k.head? ≠ some '.') :
    pointed.Refuses ind pos (t ++ k) := by
  unfold pointed
  rw [refuses_alt_iff]
  constructor
  · change (seq digits (seq (char '.') (opt digits))).Refuses ind pos _
    rw [refuses_seq_iff (by rfl)]
    refine Or.inr ⟨t, k, [], rfl, takes_digits ht hk, ?_⟩
    rw [refuses_seq_iff (by rfl), refuses_char_iff]
    exact Or.inl hdot
  · rw [refuses_seq_iff (by rfl), refuses_char_iff]
    obtain ⟨x, u, rfl, hx, -⟩ := ht
    refine Or.inl ?_
    rintro ⟨⟩
    cases hx

theorem takes_float_sound (h : (rule .floatNumber).Takes ind pos t k ns) :
    FloatText t ∧ ns = [.leaf .floatNumber pos t] := by
  obtain ⟨inner, h₀, rfl⟩ := takes_rule_iff.mp h
  refine ⟨?_, rfl⟩
  change (alt (seq pointed (opt exponent)) (seq digits exponent)).Takes ind pos t k inner at h₀
  rcases takes_alt_iff.mp h₀ with h | ⟨-, h⟩
  · obtain ⟨a, b, _, _, rfl, rfl, h₁, h₂⟩ := (takes_seq_iff (by rfl)).mp h
    refine Or.inl ⟨a, b, rfl, (takes_pointed_sound h₁).1, ?_⟩
    rcases takes_opt_iff.mp h₂ with h₂ | ⟨-, rfl, -⟩
    · exact Or.inr (takes_exponent_sound h₂).1
    · exact Or.inl rfl
  · obtain ⟨a, b, _, _, rfl, rfl, h₁, h₂⟩ := (takes_seq_iff (by rfl)).mp h
    exact Or.inr ⟨a, b, rfl, (takes_digits_sound h₁).1, (takes_exponent_sound h₂).1⟩

theorem takes_float (ht : FloatText t) (hk : DigitsEnd k)
    (he : k.head? ≠ some 'e' ∧ k.head? ≠ some 'E') :
    (rule .floatNumber).Takes ind pos t k [.leaf .floatNumber pos t] := by
  refine takes_rule_iff.mpr ⟨[], ?_, rfl⟩
  change (alt (seq pointed (opt exponent)) (seq digits exponent)).Takes ind pos t k []
  rcases ht with ⟨a, b, rfl, ha, hb⟩ | ⟨a, b, rfl, ha, hb⟩
  · refine takes_alt_iff.mpr (Or.inl ?_)
    rcases hb with rfl | hb
    · refine Takes.seq (m := []) (takes_pointed ha hk) ?_
      exact takes_opt_iff.mpr (Or.inr ⟨refuses_exponent he, rfl, rfl⟩)
    · refine Takes.seq (m := []) (takes_pointed ha hb.digitsEnd.1) ?_
      exact takes_opt_iff.mpr (Or.inl (takes_exponent hb hk))
  · obtain ⟨h₁, h₂⟩ := hb.digitsEnd (k := k)
    refine takes_alt_iff.mpr (Or.inr ⟨?_, ?_⟩)
    · rw [refuses_seq_iff (by rfl), List.append_assoc]
      exact Or.inl (refuses_pointed ha h₁ h₂)
    · exact Takes.seq (m := []) (takes_digits ha h₁) (takes_exponent hb hk)

/-! ### Taking the other notations -/

theorem takes_imag_sound (h : (rule .imagNumber).Takes ind pos t k ns) :
    ImagText t ∧ ns = [.leaf .imagNumber pos t] := by
  obtain ⟨inner, h₀, rfl⟩ := takes_rule_iff.mp h
  refine ⟨?_, rfl⟩
  obtain ⟨a, _, _, _, rfl, rfl, h₁, h₂⟩ := (takes_seq_iff (by rfl)).mp h₀
  obtain ⟨hx, rfl⟩ := takes_eitherCase_iff.mp h₂
  have ha : FloatText a ∨ Digits a := by
    rcases takes_alt_iff.mp h₁ with h₁ | ⟨-, h₁⟩
    · exact Or.inl (takes_float_sound h₁).1
    · exact Or.inr (takes_digits_sound h₁).1
  rcases hx with rfl | rfl
  · exact ⟨a, _, rfl, ha, Or.inl rfl⟩
  · exact ⟨a, _, rfl, ha, Or.inr rfl⟩

end Pattern

/-- What is taken of a text lies within a first part of it, if it has only characters of a kind that
the second part does not start with. -/
theorem exists_append_of_chars {P : Char → Bool} {u k' t k : List Char} (h : u ++ k' = t ++ k)
    (hu : ∀ x ∈ u, P x = true) (hk : ∀ x, k.head? = some x → P x = false) : ∃ v, t = u ++ v := by
  rcases List.append_eq_append_iff.mp h with ⟨v, rfl, -⟩ | ⟨v, rfl, hv⟩
  · exact ⟨v, rfl⟩
  · cases v with
    | nil => exact ⟨[], by simp⟩
    | cons x v =>
      have h₁ := hu x (by simp)
      have h₂ := hk x (by rw [hv]; rfl)
      rw [h₁] at h₂
      cases h₂

/-- Digits before a character that is none of a float number are no float number. -/
theorem refuses_float_of_digits {ind : List (List Char)} {pos : Nat} {t k : List Char}
    (ht : ∀ x ∈ t, isDigitOrUnder x = true) (hk : ∀ x, k.head? = some x → isFloatChar x = false) :
    (rule .floatNumber).Refuses ind pos (t ++ k) := by
  rw [refuses_iff rfl]
  intro u k' ns heq h
  obtain ⟨hu, -⟩ := takes_float_sound h
  obtain ⟨v, rfl⟩ := exists_append_of_chars heq.symm hu.chars hk
  obtain ⟨x, hx, hm⟩ := hu.exists_mark
  rw [ht x (by simp [hx])] at hm
  cases hm

namespace Pattern

variable {ind : List (List Char)} {pos : Nat} {t k cs : List Char} {ns : List Node}

theorem takes_imag (ht : ImagText t) :
    (rule .imagNumber).Takes ind pos t k [.leaf .imagNumber pos t] := by
  obtain ⟨a, x, rfl, ha, hx⟩ := ht
  have hmark : isFloatChar x = false ∧ isDigitOrUnder x = false ∧ x ≠ 'e' ∧ x ≠ 'E' := by
    rcases hx with rfl | rfl <;> decide
  have hnum : (alt (rule .floatNumber) digits).Takes ind pos a (x :: k) [] ∨
      (alt (rule .floatNumber) digits).Takes ind pos a (x :: k) [.leaf .floatNumber pos a] := by
    rcases ha with ha | ha
    · refine Or.inr (takes_alt_iff.mpr (Or.inl (takes_float ha (.cons hmark.2.1) ?_)))
      simpa using ⟨hmark.2.2.1, hmark.2.2.2⟩
    · refine Or.inl (takes_alt_iff.mpr (Or.inr ⟨?_, takes_digits ha (.cons hmark.2.1)⟩))
      refine refuses_float_of_digits ha.chars ?_
      rintro y ⟨⟩
      exact hmark.1
  have hj : ∀ p, (eitherCase 'j' 'J').Takes ind p [x] k [] := by
    intro p
    refine takes_eitherCase_iff.mpr ⟨?_, rfl⟩
    rcases hx with rfl | rfl
    · exact Or.inl rfl
    · exact Or.inr rfl
  rcases hnum with hnum | hnum
  · exact takes_rule_iff.mpr ⟨_, hnum.seq (hj _), rfl⟩
  · exact takes_rule_iff.mpr ⟨_, hnum.seq (hj _), rfl⟩

theorem takes_dec_sound (h : (rule .decNumber).Takes ind pos t k ns) :
    DecText t ∧ ns = [.leaf .decNumber pos t] := by
  obtain ⟨inner, h₀, rfl⟩ := takes_rule_iff.mp h
  refine ⟨?_, rfl⟩
  rcases takes_alt_iff.mp h₀ with h | ⟨-, h⟩
  · obtain ⟨_, _, _, _, rfl, rfl, h₁, h₂⟩ := (takes_seq_iff (by rfl)).mp h
    obtain ⟨rfl, rfl⟩ := takes_char_iff.mp h₁
    obtain ⟨rfl, -, -⟩ := takes_notAhead_iff.mp h₂
    exact Or.inl rfl
  · obtain ⟨_, u, _, _, rfl, rfl, h₁, h₂⟩ := (takes_seq_iff (by rfl)).mp h
    obtain ⟨x, rfl, hx, rfl⟩ := takes_one_iff.mp h₁
    exact Or.inr ⟨x, u, rfl, hx, (takes_moreDigits_sound h₂).1⟩

theorem takes_dec (ht : DecText t) (hk : DigitsEnd k) :
    (rule .decNumber).Takes ind pos t k [.leaf .decNumber pos t] := by
  refine takes_rule_iff.mpr ⟨[], ?_, rfl⟩
  rcases ht with rfl | ⟨x, u, rfl, hx, hu⟩
  · refine takes_alt_iff.mpr (Or.inl ?_)
    refine Takes.seq (a := ['0']) (b := []) (m := []) (takes_char_iff.mpr ⟨rfl, rfl⟩) ?_
    refine takes_notAhead_iff.mpr ⟨rfl, rfl, ?_⟩
    rw [refuses_one_iff]
    exact hk.stops
  · refine takes_alt_iff.mpr (Or.inr ⟨?_, ?_⟩)
    · rw [refuses_seq_iff (by rfl), refuses_char_iff]
      refine Or.inl ?_
      rintro ⟨⟩
      cases hx
    · exact Takes.seq (m := []) (takes_one_iff.mpr ⟨x, rfl, hx, rfl⟩) (takes_moreDigits hu hk)

theorem takes_based_iff {x y : Char} {K : CharClass} :
    (based x y K).Takes ind pos t k ns ↔
      BasedText x y K t ∧ Stops (.either K (.just '_')) k ∧ ns = [] := by
  change (seq (char '0') (seq (eitherCase x y) (many _))).Takes ind pos t k ns ↔ _
  constructor
  · intro h
    obtain ⟨_, _, _, _, rfl, rfl, h₁, h₂⟩ := (takes_seq_iff (by rfl)).mp h
    obtain ⟨rfl, rfl⟩ := takes_char_iff.mp h₁
    obtain ⟨_, u, _, _, rfl, rfl, h₃, h₄⟩ := (takes_seq_iff (by rfl)).mp h₂
    obtain ⟨hx, rfl⟩ := takes_eitherCase_iff.mp h₃
    obtain ⟨hu, hk, rfl⟩ := takes_many_iff.mp h₄
    rcases hx with rfl | rfl
    · exact ⟨⟨_, u, rfl, Or.inl rfl, hu⟩, hk, rfl⟩
    · exact ⟨⟨_, u, rfl, Or.inr rfl, hu⟩, hk, rfl⟩
  · rintro ⟨⟨z, u, rfl, hz, hu⟩, hk, rfl⟩
    refine Takes.seq (m := []) (takes_char_iff.mpr ⟨rfl, rfl⟩) ?_
    refine Takes.seq (m := []) (takes_eitherCase_iff.mpr ⟨?_, rfl⟩) (takes_many_iff.mpr ⟨hu, hk, rfl⟩)
    rcases hz with rfl | rfl
    · exact Or.inl rfl
    · exact Or.inr rfl

end Pattern

/-! ### All notations -/

namespace NumberKind

/-- The characters of a notation. -/
def uses : NumberKind → Char → Bool
  | dec, x => isDigitOrUnder x
  | hex, x => CharClass.hexDigit.contains x || x == '_' || x == 'x' || x == 'X'
  | oct, x => CharClass.octDigit.contains x || x == '_' || x == 'o' || x == 'O'
  | bin, x => CharClass.binDigit.contains x || x == '_' || x == 'b' || x == 'B'
  | float, x => isFloatChar x
  | imag, x => isFloatChar x || x == 'j' || x == 'J'

/-- The characters that tell a notation from those that are tried after it. -/
def marks : NumberKind → Char → Bool
  | dec, _ => false
  | hex, x => x == 'x' || x == 'X'
  | oct, x => x == 'o' || x == 'O'
  | bin, x => x == 'b' || x == 'B'
  | float, x => !isDigitOrUnder x
  | imag, x => x == 'j' || x == 'J'

/-- The place of a notation in the order in which the rules are tried. -/
def place : NumberKind → Nat
  | hex => 0
  | oct => 1
  | bin => 2
  | imag => 3
  | float => 4
  | dec => 5

theorem uses_of_basedText {lower upper : Char} {K : CharClass} {t : List Char}
    (h : BasedText lower upper K t) (hK : K.contains '0' = true) : ∀ x ∈ t,
      (K.contains x || x == '_' || x == lower || x == upper) = true := by
  obtain ⟨y, u, rfl, hy, hu⟩ := h
  intro x hx
  simp only [List.mem_append, List.mem_singleton] at hx
  rcases hx with rfl | rfl | hx
  · simp [hK]
  · rcases hy with rfl | rfl <;> simp
  · have := hu x hx
    simp only [CharClass.contains, Bool.or_eq_true, beq_iff_eq] at this
    rcases this with h | rfl
    · simp [h]
    · simp

theorem uses_of_imagText {t : List Char} (h : ImagText t) : ∀ x ∈ t, imag.uses x = true := by
  obtain ⟨a, y, rfl, ha, hy⟩ := h
  intro x hx
  rcases List.mem_append.mp hx with hx | hx
  · have hf : isFloatChar x = true := by
      rcases ha with ha | ha
      · exact ha.chars x hx
      · exact isFloatChar_of_isDigitOrUnder (ha.chars x hx)
    simp [uses, hf]
  · rw [List.mem_singleton.mp hx]
    rcases hy with rfl | rfl <;> decide

theorem Spells.uses {κ : NumberKind} {t : List Char} (h : κ.Spells t) :
    ∀ x ∈ t, κ.uses x = true := by
  cases κ with
  | dec => exact DecText.chars h
  | hex => exact uses_of_basedText h (by decide)
  | oct => exact uses_of_basedText h (by decide)
  | bin => exact uses_of_basedText h (by decide)
  | float => exact FloatText.chars h
  | imag => exact uses_of_imagText h

theorem marks_of_basedText {lower upper : Char} {K : CharClass} {t : List Char}
    (h : BasedText lower upper K t) : ∃ x ∈ t, (x == lower || x == upper) = true := by
  obtain ⟨x, u, rfl, hx, -⟩ := h
  refine ⟨x, by simp, ?_⟩
  rcases hx with rfl | rfl <;> simp

/-- Every text of a notation but the decimal one has a mark of it. -/
theorem Spells.exists_mark {κ : NumberKind} {t : List Char} (h : κ.Spells t) (hκ : κ ≠ dec) :
    ∃ x ∈ t, κ.marks x = true := by
  cases κ with
  | dec => exact absurd rfl hκ
  | hex => exact marks_of_basedText h
  | oct => exact marks_of_basedText h
  | bin => exact marks_of_basedText h
  | float =>
    obtain ⟨x, hx, hm⟩ := FloatText.exists_mark h
    exact ⟨x, hx, by simp [marks, hm]⟩
  | imag =>
    obtain ⟨a, x, rfl, -, hx⟩ := h
    refine ⟨x, by simp, ?_⟩
    rcases hx with rfl | rfl <;> decide

/-- A notation does not use the marks of those that are tried before it. -/
theorem marks_eq_false_of_uses {κ κ' : NumberKind} {x : Char} (h : κ.uses x = true)
    (hlt : κ'.place < κ.place) : κ'.marks x = false := by
  have hletter : ∀ y, κ.uses y = false → x ≠ y := by
    rintro y hy rfl
    rw [h] at hy
    cases hy
  cases κ' with
  | dec => rfl
  | float => cases κ <;> first | simp [marks, NumberKind.uses] at h ⊢; exact h | simp [place] at hlt
  | _ =>
    simp only [marks, Bool.or_eq_false_iff, beq_eq_false_iff_ne]
    refine ⟨hletter _ ?_, hletter _ ?_⟩ <;> cases κ <;> first | decide | simp [place] at hlt

theorem isNumeral_of_uses {κ : NumberKind} {x : Char} (h : κ.uses x = true) :
    isNumeral x = true := by
  have halnum : x.isAlphanum = true → isNumeral x = true := by
    intro hx
    simp [isNumeral, hx]
  have hdigit : ∀ {a b : Char}, '0' ≤ a → b ≤ '9' → a ≤ x → x ≤ b → isNumeral x = true := by
    intro a b ha hb h₁ h₂
    refine halnum ?_
    simp only [Char.isAlphanum, Char.isDigit, Bool.or_eq_true, Bool.and_eq_true, decide_eq_true_eq,
      ge_iff_le]
    exact Or.inr ⟨Char.le_trans ha h₁, Char.le_trans h₂ hb⟩
  cases κ with
  | dec => exact isNumeral_of_isFloatChar (isFloatChar_of_isDigitOrUnder h)
  | float => exact isNumeral_of_isFloatChar h
  | imag =>
    simp only [NumberKind.uses, Bool.or_eq_true, beq_iff_eq] at h
    rcases h with (h | rfl) | rfl
    · exact isNumeral_of_isFloatChar h
    · decide
    · decide
  | hex =>
    simp only [NumberKind.uses, CharClass.contains, Bool.or_eq_true, Bool.and_eq_true, beq_iff_eq,
      decide_eq_true_eq] at h
    rcases h with ((((h | h) | h) | rfl) | rfl) | rfl
    · exact hdigit (by decide) (by decide) h.1 h.2
    · refine halnum ?_
      delta Char.isAlphanum Char.isAlpha Char.isLower
      simp only [Bool.or_eq_true, Bool.and_eq_true, decide_eq_true_eq, ge_iff_le]
      exact Or.inl (Or.inr ⟨h.1, Char.le_trans h.2 (by decide)⟩)
    · refine halnum ?_
      delta Char.isAlphanum Char.isAlpha Char.isUpper
      simp only [Bool.or_eq_true, decide_eq_true_eq, ge_iff_le]
      exact Or.inl (Or.inl ⟨h.1, Char.le_trans h.2 (by decide)⟩)
    all_goals decide
  | oct =>
    simp only [NumberKind.uses, CharClass.contains, Bool.or_eq_true, Bool.and_eq_true, beq_iff_eq,
      decide_eq_true_eq] at h
    rcases h with ((h | rfl) | rfl) | rfl
    · exact hdigit (by decide) (by decide) h.1 h.2
    all_goals decide
  | bin =>
    simp only [NumberKind.uses, CharClass.contains, Bool.or_eq_true, beq_iff_eq] at h
    rcases h with (((rfl | rfl) | rfl) | rfl) | rfl <;> decide

end NumberKind

namespace Pattern

variable {ind : List (List Char)} {pos : Nat} {t k : List Char} {ns : List Node} {κ κ' : NumberKind}

/-- **A rule for number literals takes only texts of its notation.** -/
theorem takes_number_sound (h : (rule κ.rule).Takes ind pos t k ns) :
    κ.Spells t ∧ ns = [.leaf κ.rule pos t] := by
  have hbased : ∀ {x y : Char} {K : CharClass} {r : Rule}, r.pattern = based x y K →
      r.isAtomic = true → (rule r).Takes ind pos t k ns →
      BasedText x y K t ∧ ns = [.leaf r pos t] := by
    intro x y K r hr ha h
    obtain ⟨inner, h₀, rfl⟩ := takes_rule_iff.mp h
    rw [hr] at h₀
    exact ⟨(takes_based_iff.mp h₀).1, by simp [Rule.node, ha]⟩
  cases κ with
  | dec => exact takes_dec_sound h
  | hex => exact hbased rfl rfl h
  | oct => exact hbased rfl rfl h
  | bin => exact hbased rfl rfl h
  | float => exact takes_float_sound h
  | imag => exact takes_imag_sound h

/-- **A rule for number literals takes the texts of its notation** where no number goes on. -/
theorem takes_number (ht : κ.Spells t) (hk : NumberEnd k) :
    (rule κ.rule).Takes ind pos t k [.leaf κ.rule pos t] := by
  have hstop : ∀ {K : CharClass}, (∀ x, K.contains x = true → isNumeral x = true) →
      Stops (.either K (.just '_')) k := by
    intro K hK x hx
    rw [← Bool.not_eq_true]
    intro h
    have hn : isNumeral x = true := by
      simp only [CharClass.contains, Bool.or_eq_true, beq_iff_eq] at h
      rcases h with h | rfl
      · exact hK x h
      · decide
    rw [hk x hx] at hn
    cases hn
  have hbased : ∀ {x y : Char} {K : CharClass} {r : Rule}, r.pattern = based x y K →
      r.isAtomic = true → BasedText x y K t → (∀ x, K.contains x = true → isNumeral x = true) →
      (rule r).Takes ind pos t k [.leaf r pos t] := by
    intro x y K r hr ha ht hK
    refine takes_rule_iff.mpr ⟨[], ?_, by simp [Rule.node, ha]⟩
    rw [hr]
    exact takes_based_iff.mpr ⟨ht, hstop hK, rfl⟩
  cases κ with
  | dec => exact takes_dec ht hk.digitsEnd
  | hex =>
    exact hbased rfl rfl ht fun x hx =>
      NumberKind.isNumeral_of_uses (κ := .hex) (by simp [NumberKind.uses, hx])
  | oct =>
    exact hbased rfl rfl ht fun x hx =>
      NumberKind.isNumeral_of_uses (κ := .oct) (by simp [NumberKind.uses, hx])
  | bin =>
    exact hbased rfl rfl ht fun x hx =>
      NumberKind.isNumeral_of_uses (κ := .bin) (by simp [NumberKind.uses, hx])
  | float =>
    refine takes_float ht hk.digitsEnd ⟨fun h => ?_, fun h => ?_⟩
    · cases hk _ h
    · cases hk _ h
  | imag => exact takes_imag ht

/-- **A rule that is tried before the right one refuses a literal.** -/
theorem refuses_number_of_before (ht : κ.Spells t) (hk : NumberEnd k) (hlt : κ'.place < κ.place) :
    (rule κ'.rule).Refuses ind pos (t ++ k) := by
  have hne : κ' ≠ .dec := by
    rintro rfl
    cases κ <;> simp [NumberKind.place] at hlt
  rw [refuses_iff rfl]
  intro u k' ns heq h
  obtain ⟨hu, -⟩ := takes_number_sound h
  have hchars : ∀ x ∈ u, isNumeral x = true := fun x hx => NumberKind.isNumeral_of_uses (hu.uses x hx)
  obtain ⟨v, rfl⟩ := exists_append_of_chars heq.symm hchars hk
  obtain ⟨x, hx, hm⟩ := hu.exists_mark hne
  rw [NumberKind.marks_eq_false_of_uses (ht.uses x (by simp [hx])) hlt] at hm
  cases hm

end Pattern

end Offside
