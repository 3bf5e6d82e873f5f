import Offside.Proofs.Grammar.Laws

/-!
# Names and strings

What the rules for names and string literals take, as plain predicates on texts: a name is a longest
run of the characters of names that is not a keyword, and the content of a string literal is what
its delimiters can enclose.
-/

namespace Offside

open Text Pattern

/-! ### Keywords and names -/

/-- The words that cannot be names. -/
def keywords : List (List Char) :=
  [['d', 'e', 'f'], ['d', 'o'], ['i', 'f'], ['e', 'l', 'i', 'f'], ['e', 'l', 's', 'e']]

/-- The characters that may start a name. -/
def nameHead : CharClass := .either .nameStart (.just '_')

/-- The text of a name. -/
def IsName (t : List Char) : Prop :=
  (∃ x u, t = x :: u ∧ nameHead.contains x = true ∧ ∀ y ∈ u, CharClass.nameInner.contains y = true) ∧
    t ∉ keywords

theorem nameInner_of_nameHead {x : Char} (h : nameHead.contains x = true) :
    CharClass.nameInner.contains x = true := by
  simp only [nameHead, CharClass.contains, Bool.or_eq_true, beq_iff_eq] at h ⊢
  rcases h with h | rfl
  · simp [isNameInner, h]
  · decide

theorem IsName.inner {t : List Char} (h : IsName t) :
    ∀ y ∈ t, CharClass.nameInner.contains y = true := by
  obtain ⟨⟨x, u, rfl, hx, hu⟩, -⟩ := h
  intro y hy
  rcases List.mem_cons.mp hy with rfl | hy
  · exact nameInner_of_nameHead hx
  · exact hu y hy

theorem keywords_inner : ∀ w ∈ keywords, ∀ y ∈ w, CharClass.nameInner.contains y = true := by
  have h : keywords.all (fun w => w.all CharClass.nameInner.contains) = true := by decide
  simpa only [List.all_eq_true] using h

namespace Pattern

variable {ind : List (List Char)} {pos : Nat} {t k cs w : List Char} {ns : List Node}

theorem takes_word_iff :
    (word w).Takes ind pos t k ns ↔ t = w ∧ Stops .nameInner k ∧ ns = [] := by
  unfold word
  rw [takes_seq_iff (by rfl)]
  simp only [takes_text_iff, takes_notAhead_iff, refuses_one_iff]
  constructor
  · rintro ⟨_, _, _, _, rfl, rfl, ⟨rfl, rfl⟩, rfl, rfl, h⟩
    exact ⟨by simp, h, rfl⟩
  · rintro ⟨rfl, h, rfl⟩
    exact ⟨t, [], [], [], by simp, rfl, ⟨rfl, rfl⟩, rfl, rfl, h⟩

theorem refuses_word_iff :
    (word w).Refuses ind pos cs ↔ ∀ k, cs = w ++ k → ¬ Stops .nameInner k := by
  rw [refuses_iff rfl]
  simp only [takes_word_iff]
  constructor
  · rintro h k rfl hk
    exact h w k [] rfl ⟨rfl, hk, rfl⟩
  · rintro h t k ns rfl ⟨rfl, hk, -⟩
    exact h k rfl hk

theorem refuses_keyword_iff :
    keyword.Refuses ind pos cs ↔ ∀ w ∈ keywords, ∀ k, cs = w ++ k → ¬ Stops .nameInner k := by
  change (alt kwDef (alt kwDo (alt kwIf (alt kwElif kwElse)))).Refuses ind pos cs ↔ _
  simp only [kwDef, kwDo, kwIf, kwElif, kwElse, refuses_alt_iff, refuses_word_iff, keywords,
    List.forall_mem_cons, List.not_mem_nil, false_implies, implies_true, and_true]

/-- Before a text that does not go on with a character of names, a run of such characters is no
keyword if and only if the pattern for keywords refuses it. -/
theorem refuses_keyword_run_iff (ht : ∀ y ∈ t, CharClass.nameInner.contains y = true)
    (hk : Stops .nameInner k) : keyword.Refuses ind pos (t ++ k) ↔ t ∉ keywords := by
  rw [refuses_keyword_iff]
  constructor
  · intro h hmem
    exact h t hmem k rfl hk
  · intro h w hw k' heq hk'
    obtain ⟨rfl, -⟩ := hk.unique hk' ht (keywords_inner w hw) heq
    exact h hw

/-- **A name** goes as far as it can. -/
theorem takes_name_iff :
    (rule .name).Takes ind pos t k ns ↔
      IsName t ∧ Stops .nameInner k ∧ ns = [.leaf .name pos t] := by
  rw [takes_rule_iff]
  change (∃ inner, (seq (notAhead keyword) (seq (one nameHead) (many .nameInner))).Takes
    ind pos t k inner ∧ _) ↔ _
  constructor
  · rintro ⟨inner, h, rfl⟩
    obtain ⟨_, b, _, _, rfl, rfl, h₁, h₂⟩ := (takes_seq_iff (by rfl)).mp h
    obtain ⟨rfl, rfl, hkw⟩ := takes_notAhead_iff.mp h₁
    obtain ⟨_, u, _, _, rfl, rfl, h₃, h₄⟩ := (takes_seq_iff (by rfl)).mp h₂
    obtain ⟨x, rfl, hx, rfl⟩ := takes_one_iff.mp h₃
    obtain ⟨hu, hk, rfl⟩ := takes_many_iff.mp h₄
    have hall : ∀ y ∈ x :: u, CharClass.nameInner.contains y = true := by
      intro y hy
      rcases List.mem_cons.mp hy with rfl | hy
      · exact nameInner_of_nameHead hx
      · exact hu y hy
    exact ⟨⟨⟨x, u, rfl, hx, hu⟩, (refuses_keyword_run_iff hall hk).mp hkw⟩, hk, rfl⟩
  · rintro ⟨hname, hk, rfl⟩
    have hkw : keyword.Refuses ind pos (t ++ k) :=
      (refuses_keyword_run_iff hname.inner hk).mpr hname.2
    obtain ⟨⟨x, u, rfl, hx, hu⟩, -⟩ := hname
    refine ⟨[], ?_, rfl⟩
    refine Takes.seq (a := []) (m := []) (takes_notAhead_iff.mpr ⟨rfl, rfl, hkw⟩) ?_
    refine Takes.seq (a := [x]) (m := []) (takes_one_iff.mpr ⟨x, rfl, hx, rfl⟩) ?_
    exact takes_many_iff.mpr ⟨hu, hk, rfl⟩

theorem refuses_name_of_stops (h : Stops nameHead cs) : (rule .name).Refuses ind pos cs := by
  rw [refuses_iff rfl]
  rintro t k ns rfl ht
  obtain ⟨⟨⟨x, u, rfl, hx, -⟩, -⟩, -⟩ := takes_name_iff.mp ht
  rw [h x rfl] at hx
  cases hx

end Pattern

/-! ### Strings -/

/-- The content of a string literal with triple delimiters: these do not start inside it. -/
def LongBody (q : Char) : List Char → Prop
  | [] => True
  | x :: u => ¬ [q, q, q] <+: x :: (u ++ [q, q, q]) ∧ LongBody q u

/-- The content of a string literal with single delimiters: a backslash stands together with the
character after it, and neither the delimiter nor a line break stands alone. -/
inductive ShortBody (q : Char) : List Char → Prop
  | nil : ShortBody q []
  | escaped {x : Char} {u : List Char} : ShortBody q u → ShortBody q ('\\' :: x :: u)
  | plain {x : Char} {u : List Char} : x ≠ '\\' → (CharClass.within q).contains x = true →
      ShortBody q u → ShortBody q (x :: u)

/-- The text of a string literal with triple delimiters. -/
def longText (q : Char) (body : List Char) : List Char :=
  [q, q, q] ++ (body ++ [q, q, q])

/-- The text of a string literal with single delimiters. -/
def shortText (q : Char) (body : List Char) : List Char :=
  [q] ++ (body ++ [q])

/-- The two delimiters. -/
def IsQuote (q : Char) : Prop :=
  q = '\'' ∨ q = '"'

theorem prefix_append_iff_of_length_le {l a b : List Char} (h : l.length ≤ a.length) :
    l <+: a ++ b ↔ l <+: a :=
  ⟨fun hl => List.prefix_of_prefix_length_le hl (List.prefix_append a b) h,
    fun hl => hl.trans (List.prefix_append a b)⟩

namespace Pattern

variable {ind : List (List Char)} {pos : Nat} {t k cs : List Char} {ns : List Node} {q : Char}

/-- One character that does not start the closing delimiters. -/
def longItem (q : Char) : Pattern := seq (notAhead (text [q, q, q])) (one .any)

theorem takes_longItem_iff :
    (longItem q).Takes ind pos t k ns ↔ ∃ x, t = [x] ∧ ¬ [q, q, q] <+: x :: k ∧ ns = [] := by
  unfold longItem
  rw [takes_seq_iff (by rfl)]
  simp only [takes_notAhead_iff, refuses_text_iff, takes_one_iff]
  constructor
  · rintro ⟨_, _, _, _, rfl, rfl, ⟨rfl, rfl, h⟩, x, rfl, -, rfl⟩
    exact ⟨x, rfl, h, rfl⟩
  · rintro ⟨x, rfl, h, rfl⟩
    exact ⟨[], [x], [], [], rfl, rfl, ⟨rfl, rfl, h⟩, x, rfl, rfl, rfl⟩

theorem refuses_longItem_closing : (longItem q).Refuses ind pos ([q, q, q] ++ k) := by
  unfold longItem
  rw [refuses_seq_iff (by rfl)]
  refine Or.inl ?_
  rw [refuses_notAhead_iff, refuses_text_iff, Classical.not_not]
  exact List.prefix_append _ _

theorem repeats_longItem_iff :
    Repeats (longItem q) ind ([q, q, q] ++ k) pos t ns ↔ LongBody q t ∧ ns = [] := by
  have hlen : ∀ (x : Char) (u : List Char),
      [q, q, q] <+: x :: (u ++ ([q, q, q] ++ k)) ↔ [q, q, q] <+: x :: (u ++ [q, q, q]) := by
    intro x u
    rw [← List.append_assoc, ← List.cons_append,
      prefix_append_iff_of_length_le (by simp)]
  constructor
  · intro h
    induction h with
    | done _ => exact ⟨trivial, rfl⟩
    | more h _ ih =>
      obtain ⟨x, rfl, hx, rfl⟩ := takes_longItem_iff.mp h
      obtain ⟨hu, rfl⟩ := ih
      exact ⟨⟨fun hp => hx ((hlen x _).mpr hp), hu⟩, rfl⟩
  · rintro ⟨h, rfl⟩
    induction t generalizing pos with
    | nil => exact .done refuses_longItem_closing
    | cons x u ih =>
      obtain ⟨hx, hu⟩ := h
      refine .more (a := [x]) (m := []) (takes_longItem_iff.mpr ⟨x, rfl, ?_, rfl⟩) (ih hu)
      exact fun hp => hx ((hlen x u).mp hp)

theorem takes_longQuoted_iff :
    (longQuoted q).Takes ind pos t k ns ↔
      ∃ body, t = longText q body ∧ LongBody q body ∧ ns = [] := by
  change (seq (text [q, q, q]) (seq (star (longItem q)) (text [q, q, q]))).Takes ind pos t k ns ↔ _
  constructor
  · intro h
    obtain ⟨_, _, _, _, rfl, rfl, h₁, h₂⟩ := (takes_seq_iff (by rfl)).mp h
    obtain ⟨rfl, rfl⟩ := takes_text_iff.mp h₁
    obtain ⟨body, _, _, _, rfl, rfl, h₃, h₄⟩ := (takes_seq_iff (by rfl)).mp h₂
    obtain ⟨rfl, rfl⟩ := takes_text_iff.mp h₄
    obtain ⟨hbody, rfl⟩ := repeats_longItem_iff.mp ((takes_star_iff (by rfl) (by rfl)).mp h₃)
    exact ⟨body, rfl, hbody, rfl⟩
  · rintro ⟨body, rfl, hbody, rfl⟩
    refine Takes.seq (m := []) (takes_text_iff.mpr ⟨rfl, rfl⟩) ?_
    refine Takes.seq (m := []) ?_ (takes_text_iff.mpr ⟨rfl, rfl⟩)
    exact (takes_star_iff (by rfl) (by rfl)).mpr (repeats_longItem_iff.mpr ⟨hbody, rfl⟩)

/-- One character, or a backslash with the character after it. -/
def shortItem (q : Char) : Pattern := alt (seq (char '\\') (one .any)) (one (.within q))

theorem refuses_shortItem_closing (hq : IsQuote q) : (shortItem q).Refuses ind pos ([q] ++ k) := by
  unfold shortItem
  rw [refuses_alt_iff, refuses_seq_iff (by rfl), refuses_char_iff, refuses_one_iff]
  constructor
  · left
    rcases hq with rfl | rfl <;> simp
  · intro x hx
    cases hx
    simp [CharClass.contains]

theorem repeats_shortItem_iff (hq : IsQuote q) :
    Repeats (shortItem q) ind ([q] ++ k) pos t ns ↔ ShortBody q t ∧ ns = [] := by
  constructor
  · intro h
    induction h with
    | done _ => exact ⟨.nil, rfl⟩
    | @more pos a u _ _ h _ ih =>
      obtain ⟨hu, rfl⟩ := ih
      rcases takes_alt_iff.mp h with h | ⟨hr, h⟩
      · obtain ⟨_, _, _, _, rfl, rfl, h₁, h₂⟩ := (takes_seq_iff (by rfl)).mp h
        obtain ⟨rfl, rfl⟩ := takes_char_iff.mp h₁
        obtain ⟨x, rfl, -, rfl⟩ := takes_one_iff.mp h₂
        exact ⟨.escaped hu, rfl⟩
      · obtain ⟨x, rfl, hx, rfl⟩ := takes_one_iff.mp h
        refine ⟨.plain ?_ hx hu, rfl⟩
        -- A backslash would have taken the next character, of which there is one at least.
        rintro rfl
        rw [refuses_seq_iff (by rfl), refuses_char_iff] at hr
        rcases hr with hr | ⟨_, b, _, hb, h₁, h₂⟩
        · exact hr rfl
        · obtain ⟨rfl, -⟩ := takes_char_iff.mp h₁
          rw [refuses_one_iff] at h₂
          simp only [List.cons_append, List.nil_append, List.cons.injEq, true_and] at hb
          cases u with
          | nil => cases h₂ q (by rw [← hb]; rfl)
          | cons y u => cases h₂ y (by rw [← hb]; rfl)
  · rintro ⟨h, rfl⟩
    induction h generalizing pos with
    | nil => exact .done (refuses_shortItem_closing hq)
    | @escaped x u _ ih =>
      refine .more (a := ['\\', x]) (m := []) (takes_alt_iff.mpr (Or.inl ?_)) ih
      refine Takes.seq (a := ['\\']) (b := [x]) (m := []) (takes_char_iff.mpr ⟨rfl, rfl⟩) ?_
      exact takes_one_iff.mpr ⟨x, rfl, rfl, rfl⟩
    | @plain x u hne hx _ ih =>
      refine .more (a := [x]) (m := []) (takes_alt_iff.mpr (Or.inr ⟨?_, ?_⟩)) ih
      · rw [refuses_seq_iff (by rfl), refuses_char_iff]
        exact Or.inl (by simpa using hne)
      · exact takes_one_iff.mpr ⟨x, rfl, hx, rfl⟩

theorem takes_quoted_iff (hq : IsQuote q) :
    (quoted q).Takes ind pos t k ns ↔ ∃ body, t = shortText q body ∧ ShortBody q body ∧ ns = [] := by
  change (seq (char q) (seq (star (shortItem q)) (char q))).Takes ind pos t k ns ↔ _
  constructor
  · intro h
    obtain ⟨_, _, _, _, rfl, rfl, h₁, h₂⟩ := (takes_seq_iff (by rfl)).mp h
    obtain ⟨rfl, rfl⟩ := takes_char_iff.mp h₁
    obtain ⟨body, _, _, _, rfl, rfl, h₃, h₄⟩ := (takes_seq_iff (by rfl)).mp h₂
    obtain ⟨rfl, rfl⟩ := takes_char_iff.mp h₄
    obtain ⟨hbody, rfl⟩ := (repeats_shortItem_iff hq).mp ((takes_star_iff (by rfl) (by rfl)).mp h₃)
    exact ⟨body, rfl, hbody, rfl⟩
  · rintro ⟨body, rfl, hbody, rfl⟩
    refine Takes.seq (m := []) (takes_char_iff.mpr ⟨rfl, rfl⟩) ?_
    refine Takes.seq (m := []) ?_ (takes_char_iff.mpr ⟨rfl, rfl⟩)
    exact (takes_star_iff (by rfl) (by rfl)).mpr ((repeats_shortItem_iff hq).mpr ⟨hbody, rfl⟩)

/-- **A string literal with triple delimiters.** -/
theorem takes_longString_iff :
    (rule .longString).Takes ind pos t k ns ↔ ∃ q body, IsQuote q ∧ t = longText q body ∧
      LongBody q body ∧ ns = [.leaf .longString pos t] := by
  rw [takes_rule_iff]
  change (∃ inner, (alt (longQuoted '\'') (longQuoted '"')).Takes ind pos t k inner ∧ _) ↔ _
  simp only [takes_alt_iff, takes_longQuoted_iff]
  constructor
  · rintro ⟨_, ⟨body, rfl, hbody, rfl⟩ | ⟨-, body, rfl, hbody, rfl⟩, rfl⟩
    · exact ⟨_, body, Or.inl rfl, rfl, hbody, rfl⟩
    · exact ⟨_, body, Or.inr rfl, rfl, hbody, rfl⟩
  · rintro ⟨_, body, rfl | rfl, rfl, hbody, rfl⟩
    · exact ⟨[], Or.inl ⟨body, rfl, hbody, rfl⟩, rfl⟩
    · refine ⟨[], Or.inr ⟨?_, body, rfl, hbody, rfl⟩, rfl⟩
      change (seq (text _) _).Refuses _ _ _
      rw [refuses_seq_iff (by rfl), refuses_text_iff]
      exact Or.inl (by simp [longText])

/-- **A string literal with single delimiters.** -/
theorem takes_string_iff :
    (rule .string).Takes ind pos t k ns ↔ ∃ q body, IsQuote q ∧ t = shortText q body ∧
      ShortBody q body ∧ ns = [.leaf .string pos t] := by
  rw [takes_rule_iff]
  change (∃ inner, (alt (quoted '\'') (quoted '"')).Takes ind pos t k inner ∧ _) ↔ _
  simp only [takes_alt_iff, takes_quoted_iff (Or.inl rfl), takes_quoted_iff (Or.inr rfl)]
  constructor
  · rintro ⟨_, ⟨body, rfl, hbody, rfl⟩ | ⟨-, body, rfl, hbody, rfl⟩, rfl⟩
    · exact ⟨_, body, Or.inl rfl, rfl, hbody, rfl⟩
    · exact ⟨_, body, Or.inr rfl, rfl, hbody, rfl⟩
  · rintro ⟨_, body, rfl | rfl, rfl, hbody, rfl⟩
    · exact ⟨[], Or.inl ⟨body, rfl, hbody, rfl⟩, rfl⟩
    · refine ⟨[], Or.inr ⟨?_, body, rfl, hbody, rfl⟩, rfl⟩
      change (seq (char _) _).Refuses _ _ _
      rw [refuses_seq_iff (by rfl), refuses_char_iff]
      exact Or.inl (by simp [shortText])

end Pattern

end Offside
