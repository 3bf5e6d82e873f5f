import Offside.Template

/-!
# Templates

A template is a list of segments, each a character that stands for itself or the name of a
placeholder.  It is written with its braces doubled and its names between braces, and no two templates
are written alike.  A text that is not the written form of a template, or of one with a name that has
no value, goes on like such a template up to some place; what is wrong there is what is reported.

* segments and how they are written: `Template.Segment`, `Template.written`;
* no segment is written like the start of another: `Template.Segment.written_cancel`, and hence
  templates can be told apart: `Template.written_comparable`, `Template.written_injective`;
* where a text cannot go on as a template: `Template.Stuck`, `Template.exists_reading`;
* **exactly the written templates are filled**: `Template.substitute_iff`.
-/

namespace Offside.Template

/-! ### Segments -/

/-- A text without braces. -/
def Braceless (t : List Char) : Prop :=
  ∀ c ∈ t, c ≠ '\x7b' ∧ c ≠ '\x7d'

/-- A name as placeholders spell it. -/
abbrev Key :=
  { k : List Char // isKey k = true }

/-- A part of a template: a character that stands for itself, or a placeholder. -/
inductive Segment where
  | char (c : Char)
  | key (k : Key)

/-- How a segment is written: a brace twice, another character once, a name between braces. -/
def Segment.written : Segment → List Char
  | .char c => if c = '\x7b' ∨ c = '\x7d' then [c, c] else [c]
  | .key k => '\x7b' :: (k.val ++ ['\x7d'])

/-- **How a template is written.** -/
def written (segs : List Segment) : List Char :=
  segs.flatMap Segment.written

/-- The text that a segment stands for, if its name has a value: the value as it is displayed. -/
def Segment.text? (lookup : String → Option Value) : Segment → Option (List Char)
  | .char c => some [c]
  | .key k => (lookup (String.ofList k.val)).map fun v => v.display.toList

/-- **The text that a template stands for**, if all of its names have values. -/
def text? (lookup : String → Option Value) : List Segment → Option (List Char)
  | [] => some []
  | s :: segs => (s.text? lookup).bind fun u => (text? lookup segs).map (u ++ ·)

/-! ### Texts without braces -/

theorem braceless_of_isKey {k : List Char} (h : isKey k = true) : Braceless k := by
  have hopen : isKeyInner '\x7b' = false := by decide +kernel
  have hclose : isKeyInner '\x7d' = false := by decide +kernel
  have hinner : ∀ c ∈ k, isKeyInner c = true := by
    cases k with
    | nil => simp
    | cons c cs =>
      simp only [isKey, Bool.and_eq_true, List.all_eq_true] at h
      rw [List.forall_mem_cons]
      refine ⟨?_, h.2⟩
      rw [isKeyInner, Bool.or_eq_true]
      exact Or.inl h.1
  intro c hc
  constructor
  · rintro rfl
    exact absurd (hinner _ hc) (by rw [hopen]; decide)
  · rintro rfl
    exact absurd (hinner _ hc) (by rw [hclose]; decide)

theorem ne_nil_of_isKey {k : List Char} (h : isKey k = true) : k ≠ [] := by
  rintro rfl
  cases h

/-- A text is empty or starts with a brace. -/
def AtBrace (cs : List Char) : Prop :=
  ∀ c ∈ cs.head?, c = '\x7b' ∨ c = '\x7d'

/-- Every text has a part without braces up to its first brace. -/
theorem exists_braceless (cs : List Char) :
    ∃ key rest, cs = key ++ rest ∧ Braceless key ∧ AtBrace rest := by
  induction cs with
  | nil => exact ⟨[], [], rfl, by simp [Braceless], by simp [AtBrace]⟩
  | cons c cs ih =>
    by_cases hc : c = '\x7b' ∨ c = '\x7d'
    · exact ⟨[], c :: cs, rfl, by simp [Braceless], by simpa [AtBrace] using hc⟩
    · obtain ⟨key, rest, rfl, hkey, hrest⟩ := ih
      exact ⟨c :: key, rest, rfl, List.forall_mem_cons.mpr ⟨not_or.mp hc, hkey⟩, hrest⟩

/-- It has only one such part. -/
theorem Braceless.unique {key key' rest rest' : List Char} (hkey : Braceless key)
    (hkey' : Braceless key') (hrest : AtBrace rest) (hrest' : AtBrace rest')
    (h : key ++ rest = key' ++ rest') : key = key' ∧ rest = rest' := by
  induction key generalizing key' with
  | nil =>
    cases key' with
    | nil => exact ⟨rfl, h⟩
    | cons c key' =>
      obtain rfl : rest = c :: (key' ++ rest') := h
      have hc := hkey' c (List.mem_cons_self ..)
      rcases hrest c rfl with rfl | rfl
      · exact absurd rfl hc.1
      · exact absurd rfl hc.2
  | cons c key ih =>
    cases key' with
    | nil =>
      obtain rfl : c :: (key ++ rest) = rest' := h
      have hc := hkey c (List.mem_cons_self ..)
      rcases hrest' c rfl with rfl | rfl
      · exact absurd rfl hc.1
      · exact absurd rfl hc.2
    | cons c' key' =>
      obtain ⟨rfl, htail⟩ := List.cons.inj h
      obtain ⟨rfl, rfl⟩ :=
        ih (List.forall_mem_cons.mp hkey).2 (List.forall_mem_cons.mp hkey').2 htail
      exact ⟨rfl, rfl⟩

/-! ### Templates can be told apart -/

namespace Segment

variable {c : Char}

theorem written_brace (h : c = '\x7b' ∨ c = '\x7d') : (char c).written = [c, c] :=
  if_pos h

theorem written_plain (h : ¬ (c = '\x7b' ∨ c = '\x7d')) : (char c).written = [c] :=
  if_neg h

theorem written_ne_nil (s : Segment) : s.written ≠ [] := by
  cases s with
  | char c =>
    by_cases hc : c = '\x7b' ∨ c = '\x7d'
    · simp [written_brace hc]
    · simp [written_plain hc]
  | key k => simp [written]

/-- A character that is written with an opening brace is that brace. -/
theorem eq_of_written_char {cs ds : List Char} (h : (char c).written ++ cs = '\x7b' :: ds) :
    ds = '\x7b' :: cs := by
  by_cases hc : c = '\x7b' ∨ c = '\x7d'
  · rw [written_brace hc] at h
    obtain ⟨rfl, htail⟩ := List.cons.inj h
    exact htail.symm
  · rw [written_plain hc] at h
    exact absurd (Or.inl (List.cons.inj h).1) hc

/-- A character is not written like the start of a placeholder. -/
theorem written_char_ne {key cs ds : List Char} (hkey : Braceless key) (hne : key ≠ []) :
    (char c).written ++ cs ≠ '\x7b' :: (key ++ ds) := by
  intro h
  obtain ⟨d, key, rfl⟩ := List.exists_cons_of_ne_nil hne
  obtain ⟨rfl, -⟩ := List.cons.inj (eq_of_written_char h)
  exact (hkey _ (List.mem_cons_self ..)).1 rfl

theorem written_key (k : Key) (cs : List Char) :
    (key k).written ++ cs = '\x7b' :: (k.val ++ '\x7d' :: cs) := by
  simp [written]

theorem written_char_cancel {c' : Char} {cs cs' : List Char}
    (h : (char c).written ++ cs = (char c').written ++ cs') : c = c' ∧ cs = cs' := by
  have hhead : c = c' := by
    by_cases hc : c = '\x7b' ∨ c = '\x7d' <;> by_cases hc' : c' = '\x7b' ∨ c' = '\x7d' <;>
      simp only [written_brace, written_plain, hc, hc', not_false_eq_true] at h <;>
      exact (List.cons.inj h).1
  subst hhead
  exact ⟨rfl, List.append_cancel_left h⟩

/-- **No segment is written like the start of another.** -/
theorem written_cancel {s s' : Segment} {cs cs' : List Char}
    (h : s.written ++ cs = s'.written ++ cs') : s = s' ∧ cs = cs' := by
  cases s with
  | char c =>
    cases s' with
    | char c' =>
      obtain ⟨rfl, hcs⟩ := written_char_cancel h
      exact ⟨rfl, hcs⟩
    | key k =>
      rw [written_key] at h
      exact absurd h (written_char_ne (braceless_of_isKey k.property) (ne_nil_of_isKey k.property))
  | key k =>
    rw [written_key] at h
    cases s' with
    | char c =>
      exact absurd h.symm
        (written_char_ne (braceless_of_isKey k.property) (ne_nil_of_isKey k.property))
    | key k' =>
      rw [written_key] at h
      obtain ⟨hk, hcs⟩ := (braceless_of_isKey k.property).unique (braceless_of_isKey k'.property)
        (by simp [AtBrace]) (by simp [AtBrace]) (List.cons.inj h).2
      exact ⟨congrArg key (Subtype.ext hk), (List.cons.inj hcs).2⟩

end Segment

theorem written_cons (s : Segment) (segs : List Segment) :
    written (s :: segs) = s.written ++ written segs :=
  List.flatMap_cons

/-- Of two templates at the start of one text, one is a part of the other. -/
theorem written_comparable {segs segs' : List Segment} {cs cs' : List Char}
    (h : written segs ++ cs = written segs' ++ cs') :
    (∃ more, segs' = segs ++ more ∧ cs = written more ++ cs') ∨
    (∃ more, segs = segs' ++ more ∧ cs' = written more ++ cs) := by
  induction segs generalizing segs' with
  | nil => exact Or.inl ⟨segs', rfl, h⟩
  | cons s segs ih =>
    cases segs' with
    | nil => exact Or.inr ⟨s :: segs, rfl, h.symm⟩
    | cons s' segs' =>
      rw [written_cons, written_cons, List.append_assoc, List.append_assoc] at h
      obtain ⟨rfl, htail⟩ := Segment.written_cancel h
      rcases ih htail with ⟨more, rfl, hcs⟩ | ⟨more, rfl, hcs⟩
      · exact Or.inl ⟨more, rfl, hcs⟩
      · exact Or.inr ⟨more, rfl, hcs⟩

theorem eq_nil_of_written {segs : List Segment} (h : written segs = []) : segs = [] := by
  cases segs with
  | nil => rfl
  | cons s segs =>
    rw [written_cons] at h
    exact absurd (List.append_eq_nil_iff.mp h).1 s.written_ne_nil

/-- **No two templates are written alike.** -/
theorem written_injective {segs segs' : List Segment} (h : written segs = written segs') :
    segs = segs' := by
  have happend : written segs ++ [] = written segs' ++ [] := by rw [h]
  rcases written_comparable happend with ⟨more, rfl, hmore⟩ | ⟨more, rfl, hmore⟩
  all_goals
    rw [List.append_nil] at hmore
    rw [eq_nil_of_written hmore.symm, List.append_nil]

/-! ### Filling what is written -/

section

variable {lookup : String → Option String}

/-- A brace opens a placeholder unless it is doubled. -/
theorem fillFrom_open {cs : List Char} (h : cs.head? ≠ some '\x7b') :
    fillFrom lookup none ('\x7b' :: cs) = fillFrom lookup (some []) cs := by
  rw [fillFrom]
  · simp
  · rintro ds - rfl
    exact h rfl
  · intro ds hbrace
    cases hbrace

/-- Up to the next brace, the text after an opening brace is the name of the placeholder. -/
theorem fillFrom_key {t : List Char} (ht : Braceless t) (key cs : List Char) :
    fillFrom lookup (some key) (t ++ cs) = fillFrom lookup (some (t.reverse ++ key)) cs := by
  induction t generalizing key with
  | nil => rfl
  | cons c t ih =>
    obtain ⟨⟨hopen, hclose⟩, ht⟩ := List.forall_mem_cons.mp ht
    rw [List.cons_append, fillFrom, if_neg hclose, if_neg hopen, ih ht]
    simp

theorem fillFrom_open_key {t cs : List Char} (ht : Braceless t) (h : t = [] → cs.head? ≠ some '\x7b') :
    fillFrom lookup none ('\x7b' :: (t ++ cs)) = fillFrom lookup (some t.reverse) cs := by
  have hhead : (t ++ cs).head? ≠ some '\x7b' := by
    cases t with
    | nil => exact h rfl
    | cons c t =>
      rintro ⟨rfl⟩
      exact (ht _ (List.mem_cons_self ..)).1 rfl
  rw [fillFrom_open hhead, fillFrom_key ht, List.append_nil]

/-- A placeholder is filled with what its name stands for. -/
theorem fillFrom_placeholder {t : List Char} (ht : Braceless t) (cs : List Char) :
    fillFrom lookup none ('\x7b' :: (t ++ '\x7d' :: cs)) =
      (resolve lookup t).bind fun text => (fillFrom lookup none cs).map (text ++ ·) := by
  rw [fillFrom_open_key ht (by simp), fillFrom, if_pos rfl, List.reverse_reverse]
  rfl

theorem fillFrom_char (c : Char) (cs : List Char) :
    fillFrom lookup none ((Segment.char c).written ++ cs) =
      (fillFrom lookup none cs).map (c :: ·) := by
  by_cases hc : c = '\x7b' ∨ c = '\x7d'
  · rw [Segment.written_brace hc]
    rcases hc with rfl | rfl <;> rfl
  · rw [Segment.written_plain hc, List.singleton_append]
    rw [not_or] at hc
    rw [fillFrom, if_neg hc.2, if_neg hc.1]
    · rfl
    · rintro ds rfl
      exact absurd rfl hc.1
    · rintro ds rfl
      exact absurd rfl hc.2

end

variable {lookup : String → Option Value}

theorem resolve_of_lookup {k : Key} {v : Value} (h : lookup (String.ofList k.val) = some v) :
    resolve (shown lookup) k.val = .ok v.display.toList := by
  simp [resolve, ne_nil_of_isKey k.property, k.property, shown, h]

/-- A segment that stands for a text is filled with it. -/
theorem fillFrom_segment {s : Segment} {u : List Char} (h : s.text? lookup = some u)
    (cs : List Char) : fillFrom (shown lookup) none (s.written ++ cs) =
      (fillFrom (shown lookup) none cs).map (u ++ ·) := by
  cases s with
  | char c =>
    cases h
    exact fillFrom_char c cs
  | key k =>
    obtain ⟨v, hv, rfl⟩ := Option.map_eq_some_iff.mp h
    rw [Segment.written_key, fillFrom_placeholder (braceless_of_isKey k.property), resolve_of_lookup hv]
    rfl

theorem text?_append (segs segs' : List Segment) : text? lookup (segs ++ segs') =
    (text? lookup segs).bind fun u => (text? lookup segs').map (u ++ ·) := by
  induction segs with
  | nil => simp [text?]
  | cons s segs ih =>
    rw [List.cons_append, text?, text?, ih]
    cases s.text? lookup <;> cases text? lookup segs <;> cases text? lookup segs' <;> simp

/-- A template that stands for a text is filled with it, and what follows is filled next. -/
theorem fillFrom_written {segs : List Segment} {u : List Char} (h : text? lookup segs = some u)
    (cs : List Char) : fillFrom (shown lookup) none (written segs ++ cs) =
      (fillFrom (shown lookup) none cs).map (u ++ ·) := by
  induction segs generalizing u with
  | nil =>
    cases h
    change fillFrom (shown lookup) none cs = _
    cases fillFrom (shown lookup) none cs <;> rfl
  | cons s segs ih =>
    obtain ⟨u₁, hs, htail⟩ := Option.bind_eq_some_iff.mp h
    obtain ⟨u₂, hsegs, rfl⟩ := Option.map_eq_some_iff.mp htail
    rw [written_cons, List.append_assoc, fillFrom_segment hs, ih hsegs]
    cases fillFrom (shown lookup) none cs with
    | error problem => rfl
    | ok text => simp [Except.map]

/-! ### Places that cannot be read -/

/-- **What is wrong at a place** where a text does not go on with a segment that stands for a text. -/
inductive Stuck (lookup : String → Option Value) : List Char → Problem → Prop
  /-- A closing brace that is not doubled. -/
  | singleClose {cs : List Char} : cs.head? ≠ some '\x7d' → Stuck lookup ('\x7d' :: cs) .singleClose
  /-- After an opening brace that is not doubled, the text ends or another brace opens. -/
  | unclosed {key cs : List Char} : Braceless key → (∀ c ∈ cs.head?, c = '\x7b') →
      (key = [] → cs = []) → Stuck lookup ('\x7b' :: (key ++ cs)) .unclosed
  | emptyKey {cs : List Char} : Stuck lookup ('\x7b' :: '\x7d' :: cs) .emptyKey
  | badKey {key cs : List Char} : Braceless key → key ≠ [] → isKey key = false →
      Stuck lookup ('\x7b' :: (key ++ '\x7d' :: cs)) (.badKey (String.ofList key))
  | unbound {k : Key} {cs : List Char} : lookup (String.ofList k.val) = none →
      Stuck lookup ('\x7b' :: (k.val ++ '\x7d' :: cs)) (.unbound (String.ofList k.val))

/-- The problem at such a place is reported. -/
theorem Stuck.fillFrom_eq {cs : List Char} {problem : Problem} (h : Stuck lookup cs problem) :
    fillFrom (shown lookup) none cs = .error problem := by
  cases h with
  | @singleClose cs hhead =>
    rw [fillFrom, if_pos rfl]
    · intro ds hbrace
      cases hbrace
    · rintro ds - rfl
      exact hhead rfl
  | @unclosed key cs hkey hhead hempty =>
    rw [fillFrom_open_key hkey fun hnil => by simp [hempty hnil]]
    cases cs with
    | nil => rfl
    | cons c cs =>
      obtain rfl := hhead c rfl
      rfl
  | emptyKey => rfl
  | @badKey key cs hkey hne hnot =>
    rw [fillFrom_placeholder hkey]
    simp [resolve, hne, hnot, Except.bind]
  | @unbound k cs hnone =>
    rw [fillFrom_placeholder (braceless_of_isKey k.property)]
    simp [resolve, ne_nil_of_isKey k.property, k.property, shown, hnone, Except.bind]

/-- No character is written at such a place. -/
theorem Stuck.ne_written_char {c : Char} {cs ds : List Char} {problem : Problem}
    (h : Stuck lookup ds problem) : (Segment.char c).written ++ cs ≠ ds := by
  intro hds
  cases h with
  | singleClose hhead =>
    by_cases hc : c = '\x7b' ∨ c = '\x7d'
    · rw [Segment.written_brace hc] at hds
      obtain ⟨rfl, rfl⟩ := List.cons.inj hds
      exact hhead rfl
    · rw [Segment.written_plain hc] at hds
      exact hc (Or.inr (List.cons.inj hds).1)
  | @unclosed key rest hkey _ hempty =>
    by_cases hne : key = []
    · have hrest := Segment.eq_of_written_char hds
      rw [hne, hempty hne] at hrest
      cases hrest
    · exact Segment.written_char_ne hkey hne hds
  | emptyKey =>
    have hrest := Segment.eq_of_written_char hds
    cases hrest
  | badKey hkey hne _ => exact Segment.written_char_ne hkey hne hds
  | @unbound k _ _ =>
    exact Segment.written_char_ne (braceless_of_isKey k.property) (ne_nil_of_isKey k.property) hds

/-- A name between braces is written at such a place only if it has no value. -/
theorem Stuck.lookup_eq_none {k : Key} {cs ds : List Char} {problem : Problem}
    (h : Stuck lookup ds problem) (hds : (Segment.key k).written ++ cs = ds) :
    lookup (String.ofList k.val) = none := by
  have hk := braceless_of_isKey k.property
  rw [Segment.written_key] at hds
  cases h with
  | singleClose _ => cases hds
  | unclosed hkey hhead _ =>
    have hrest : AtBrace _ := fun c hc => Or.inl (hhead c hc)
    obtain ⟨-, rfl⟩ := hk.unique hkey (by simp [AtBrace]) hrest (List.cons.inj hds).2
    cases hhead _ rfl
  | @emptyKey rest =>
    have hnil : Braceless [] := by simp [Braceless]
    have hrest : AtBrace ('\x7d' :: rest) := by simp [AtBrace]
    obtain ⟨hempty, -⟩ := hk.unique hnil (by simp [AtBrace]) hrest (List.cons.inj hds).2
    exact absurd hempty (ne_nil_of_isKey k.property)
  | badKey hkey _ hnot =>
    obtain ⟨rfl, -⟩ := hk.unique hkey (by simp [AtBrace]) (by simp [AtBrace]) (List.cons.inj hds).2
    rw [k.property] at hnot
    cases hnot
  | @unbound k' _ hnone =>
    obtain ⟨hkey, -⟩ := hk.unique (braceless_of_isKey k'.property) (by simp [AtBrace])
      (by simp [AtBrace]) (List.cons.inj hds).2
    rw [hkey]
    exact hnone

/-- **No segment that stands for a text is written at such a place.** -/
theorem Stuck.text?_eq_none {s : Segment} {cs : List Char} {problem : Problem}
    (h : Stuck lookup (s.written ++ cs) problem) : s.text? lookup = none := by
  cases s with
  | char c => exact absurd rfl h.ne_written_char
  | key k => simp [Segment.text?, h.lookup_eq_none rfl]

/-- So no reading goes on beyond it. -/
theorem Stuck.prefix_of_reading {segs segs' : List Segment} {rest rest' : List Char}
    {problem : Problem} (h : Stuck lookup rest problem)
    (hcs : written segs' ++ rest' = written segs ++ rest)
    (hsome : (text? lookup segs').isSome = true) : segs' <+: segs := by
  rcases written_comparable hcs with ⟨more, rfl, -⟩ | ⟨more, rfl, rfl⟩
  · exact ⟨more, rfl⟩
  · cases more with
    | nil => simp
    | cons s more =>
      rw [written_cons, List.append_assoc] at h
      rw [text?_append, text?, h.text?_eq_none] at hsome
      simp at hsome

/-- After an opening brace that is not doubled there is a placeholder, or something is wrong. -/
theorem placeholder_or_stuck {cs : List Char} (h : cs.head? ≠ some '\x7b') :
    (∃ (k : Key) (u rest : List Char), '\x7b' :: cs = (Segment.key k).written ++ rest ∧
      (Segment.key k).text? lookup = some u) ∨ ∃ problem, Stuck lookup ('\x7b' :: cs) problem := by
  obtain ⟨key, rest, rfl, hkey, hrest⟩ := exists_braceless cs
  cases rest with
  | nil => exact Or.inr ⟨_, .unclosed hkey (by simp) fun _ => rfl⟩
  | cons c rest =>
    rcases hrest c rfl with rfl | rfl
    · refine Or.inr ⟨_, .unclosed hkey (by simp) ?_⟩
      rintro rfl
      exact absurd rfl h
    · by_cases hempty : key = []
      · subst hempty
        exact Or.inr ⟨_, .emptyKey⟩
      · cases hisKey : isKey key with
        | false => exact Or.inr ⟨_, .badKey hkey hempty hisKey⟩
        | true =>
          cases hlookup : lookup (String.ofList key) with
          | none => exact Or.inr ⟨_, .unbound (k := ⟨key, hisKey⟩) hlookup⟩
          | some v =>
            exact Or.inl ⟨⟨key, hisKey⟩, v.display.toList, rest,
              (Segment.written_key ⟨key, hisKey⟩ rest).symm, by simp [Segment.text?, hlookup]⟩

/-- A text goes on with a segment that stands for a text, or something is wrong. -/
theorem segment_or_stuck (lookup : String → Option Value) (c : Char) (cs : List Char) :
    (∃ (s : Segment) (u rest : List Char), c :: cs = s.written ++ rest ∧
      s.text? lookup = some u) ∨ ∃ problem, Stuck lookup (c :: cs) problem := by
  by_cases hdouble : (c = '\x7b' ∨ c = '\x7d') ∧ cs.head? = some c
  · obtain ⟨hc, hhead⟩ := hdouble
    cases cs with
    | nil => cases hhead
    | cons d cs =>
      cases hhead
      exact Or.inl ⟨.char c, [c], cs, by simp [Segment.written_brace hc], rfl⟩
  · by_cases hopen : c = '\x7b'
    · subst hopen
      have hhead : cs.head? ≠ some '\x7b' := fun h => hdouble ⟨Or.inl rfl, h⟩
      rcases placeholder_or_stuck hhead with ⟨k, u, rest, hcs, hu⟩ | hstuck
      · exact Or.inl ⟨.key k, u, rest, hcs, hu⟩
      · exact Or.inr hstuck
    · by_cases hclose : c = '\x7d'
      · subst hclose
        exact Or.inr ⟨_, .singleClose fun h => hdouble ⟨Or.inr rfl, h⟩⟩
      · have hplain : ¬ (c = '\x7b' ∨ c = '\x7d') := not_or.mpr ⟨hopen, hclose⟩
        exact Or.inl ⟨.char c, [c], cs, by simp [Segment.written_plain hplain], rfl⟩

/-- **Every text is read as a template up to its end, or up to a place where something is wrong.** -/
theorem exists_reading (lookup : String → Option Value) (cs : List Char) :
    ∃ segs u rest, cs = written segs ++ rest ∧ text? lookup segs = some u ∧
      (rest = [] ∨ ∃ problem, Stuck lookup rest problem) := by
  induction hn : cs.length using Nat.strongRecOn generalizing cs with
  | ind n ih =>
    cases cs with
    | nil => exact ⟨[], [], [], rfl, rfl, Or.inl rfl⟩
    | cons c cs =>
      rcases segment_or_stuck lookup c cs with ⟨s, u, rest, hcs, hu⟩ | hstuck
      · have hlen : rest.length < n := by
          rw [← hn, hcs, List.length_append]
          exact Nat.lt_add_of_pos_left (List.length_pos_iff.mpr s.written_ne_nil)
        obtain ⟨segs, u', rest', rfl, hu', hend⟩ := ih rest.length hlen rest rfl
        refine ⟨s :: segs, u ++ u', rest', ?_, ?_, hend⟩
        · rw [hcs, written_cons, List.append_assoc]
        · simp [text?, hu, hu']
      · exact ⟨[], [], c :: cs, rfl, rfl, Or.inr hstuck⟩

/-! ### Whole templates -/

theorem Problem.kind_toCause (problem : Problem) (literal : String) :
    (problem.toCause literal).kind = .formatKey := by
  cases problem <;> rfl

theorem substitute_of_written {content : String} {segs : List Segment} {u : List Char}
    (h : content.toList = written segs) (hu : text? lookup segs = some u) (literal : String) :
    substitute lookup content literal = .ok (String.ofList u) := by
  have hfill := fillFrom_written hu []
  rw [List.append_nil] at hfill
  rw [substitute, fill, h, hfill, fillFrom]
  exact congrArg (fun text => Except.ok (String.ofList text)) (List.append_nil u)

theorem substitute_of_stuck {content : String} {segs : List Segment} {u rest : List Char}
    {problem : Problem} (h : content.toList = written segs ++ rest)
    (hu : text? lookup segs = some u) (hstuck : Stuck lookup rest problem) (literal : String) :
    substitute lookup content literal = .error (problem.toCause literal) := by
  unfold substitute fill
  rw [h, fillFrom_written hu, hstuck.fillFrom_eq]
  rfl

/-- A text with its braces doubled. -/
def doubled (s : String) : String :=
  String.ofList (s.toList.flatMap fun c => if c = '\x7b' ∨ c = '\x7d' then [c, c] else [c])

/-- Doubling the braces writes the template in which every character is meant as text. -/
theorem toList_doubled (s : String) : (doubled s).toList = written (s.toList.map .char) := by
  rw [doubled, String.toList_ofList, written, List.flatMap_map]
  rfl

theorem text?_chars (cs : List Char) : text? lookup (cs.map .char) = some cs := by
  induction cs with
  | nil => rfl
  | cons c cs ih =>
    rw [List.map_cons, text?, ih]
    rfl

theorem substitute_doubled (s literal : String) :
    substitute lookup (doubled s) literal = .ok s := by
  rw [substitute_of_written (toList_doubled s) (text?_chars s.toList), String.ofList_toList]

/-- **Exactly the written templates are filled.**  A text is filled if and only if it is the written
form of a template all of whose names have values, which is then the only one; the result is the text
that the template stands for.  In particular, doubled braces become single ones.  In every other case
the problem is reported that is found at the leftmost place where the text cannot be read or a name
has no value: a template can be read up to there, and no further. -/
theorem substitute_iff (lookup : String → Option Value) (content literal : String) :
    (∀ t, substitute lookup content literal = .ok t ↔
      ∃ segs, content.toList = written segs ∧ text? lookup segs = some t.toList) ∧
    (∀ segs segs', content.toList = written segs → content.toList = written segs' → segs = segs') ∧
    (∀ s, substitute lookup (doubled s) literal = .ok s) ∧
    ((¬ ∃ segs, content.toList = written segs ∧ (text? lookup segs).isSome = true) →
      ∃ segs rest problem, content.toList = written segs ++ rest ∧
        (text? lookup segs).isSome = true ∧ Stuck lookup rest problem ∧
        (∀ segs' rest', content.toList = written segs' ++ rest' →
          (text? lookup segs').isSome = true → segs' <+: segs) ∧
        substitute lookup content literal = .error (problem.toCause literal) ∧
        (problem.toCause literal).kind = .formatKey) := by
  obtain ⟨segs, u, rest, hcs, hu, hend⟩ := exists_reading lookup content.toList
  refine ⟨fun t => ⟨fun ht => ?_, ?_⟩, fun segs segs' h h' => written_injective (h.symm.trans h'),
    fun s => substitute_doubled s literal, fun hnone => ?_⟩
  · rcases hend with rfl | ⟨problem, hstuck⟩
    · rw [List.append_nil] at hcs
      rw [substitute_of_written hcs hu] at ht
      cases ht
      exact ⟨segs, hcs, by rw [hu, String.toList_ofList]⟩
    · rw [substitute_of_stuck hcs hu hstuck] at ht
      cases ht
  · rintro ⟨segs, hcs, hu⟩
    rw [substitute_of_written hcs hu, String.ofList_toList]
  · rcases hend with rfl | ⟨problem, hstuck⟩
    · rw [List.append_nil] at hcs
      exact absurd ⟨segs, hcs, by rw [hu]; rfl⟩ hnone
    · refine ⟨segs, rest, problem, hcs, by rw [hu]; rfl, hstuck, fun segs' rest' h hsome => ?_,
        substitute_of_stuck hcs hu hstuck literal, problem.kind_toCause literal⟩
      exact hstuck.prefix_of_reading (h.symm.trans hcs) hsome

end Offside.Template
