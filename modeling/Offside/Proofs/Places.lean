import Offside.Proofs.Syntax
import Offside.Proofs.Grammar.Soundness

/-!
# Where the items of a program stand

A text stands in a source at an offset if the source can be cut there and after it.  Every item of a
program that was read from a source stands in it, and its span marks its text.

* slices of a source: `slice?_eq_some_iff`;
* an item stands in a source: `Item.StandsIn`;
* **every item of a parsed program stands in its source**: `Program.items_standIn`;
* **every span marks a part of the source**: `Item.StandsIn.slice`.
-/

namespace Offside

open Text Pattern

/-! ### Texts in a source -/

/-- The text `t` stands in the source at an offset. -/
def StandsAt (cs : List Char) (pos : Nat) (t : List Char) : Prop :=
  ∃ a b, cs = a ++ (t ++ b) ∧ byteSize a = pos

/-- Dropping the bytes of a whole character. -/
theorem dropBytes?_cons (c : Char) (cs : List Char) (n : Nat) :
    dropBytes? (c :: cs) (c.utf8Size + n) = dropBytes? cs n := by
  have hpos := c.utf8Size_pos
  obtain ⟨m, hm⟩ : ∃ m, c.utf8Size + n = m + 1 := ⟨c.utf8Size + n - 1, by omega⟩
  have hrest : m + 1 - c.utf8Size = n := by omega
  rw [hm, dropBytes?, if_pos (by omega), hrest]

theorem takeBytes?_cons (c : Char) (cs : List Char) (n : Nat) :
    takeBytes? (c :: cs) (c.utf8Size + n) = (takeBytes? cs n).map (c :: ·) := by
  have hpos := c.utf8Size_pos
  obtain ⟨m, hm⟩ : ∃ m, c.utf8Size + n = m + 1 := ⟨c.utf8Size + n - 1, by omega⟩
  have hrest : m + 1 - c.utf8Size = n := by omega
  rw [hm, takeBytes?, if_pos (by omega), hrest]

theorem dropBytes?_eq_some_iff {cs r : List Char} {n : Nat} :
    dropBytes? cs n = some r ↔ ∃ a, cs = a ++ r ∧ byteSize a = n := by
  constructor
  · intro h
    fun_induction dropBytes? cs n with
    | case1 cs =>
      cases h
      exact ⟨[], rfl, rfl⟩
    | case2 n => cases h
    | case3 c cs n hle ih =>
      obtain ⟨a, rfl, hsize⟩ := ih h
      exact ⟨c :: a, rfl, by rw [byteSize_cons]; omega⟩
    | case4 c cs n hlt => cases h
  · rintro ⟨a, rfl, rfl⟩
    induction a with
    | nil => rw [byteSize_nil, List.nil_append, dropBytes?]
    | cons c a ih => rw [List.cons_append, byteSize_cons, dropBytes?_cons, ih]

theorem takeBytes?_eq_some_iff {cs t : List Char} {n : Nat} :
    takeBytes? cs n = some t ↔ ∃ b, cs = t ++ b ∧ byteSize t = n := by
  constructor
  · intro h
    fun_induction takeBytes? cs n generalizing t with
    | case1 cs =>
      cases h
      exact ⟨cs, rfl, rfl⟩
    | case2 n => cases h
    | case3 c cs n hle ih =>
      obtain ⟨u, hu, rfl⟩ := Option.map_eq_some_iff.mp h
      obtain ⟨b, rfl, hsize⟩ := ih hu
      exact ⟨b, rfl, by rw [byteSize_cons]; omega⟩
    | case4 c cs n hlt => cases h
  · rintro ⟨b, rfl, rfl⟩
    induction t with
    | nil => rw [byteSize_nil, takeBytes?]
    | cons c t ih =>
      rw [List.cons_append, byteSize_cons, takeBytes?_cons, ih]
      rfl

/-- **A slice of a source is the text that stands there.** -/
theorem slice?_eq_some_iff {cs t : List Char} {start stop : Nat} :
    slice? cs start stop = some t ↔ StandsAt cs start t ∧ stop = start + byteSize t := by
  unfold slice?
  constructor
  · intro h
    split at h
    · next hle =>
      obtain ⟨r, hdrop, htake⟩ := Option.bind_eq_some_iff.mp h
      obtain ⟨a, rfl, hsize⟩ := dropBytes?_eq_some_iff.mp hdrop
      obtain ⟨b, rfl, hsize'⟩ := takeBytes?_eq_some_iff.mp htake
      exact ⟨⟨a, b, rfl, hsize⟩, by omega⟩
    · cases h
  · rintro ⟨⟨a, b, rfl, hsize⟩, rfl⟩
    rw [if_pos (by omega), dropBytes?_eq_some_iff.mpr ⟨a, rfl, hsize⟩, Option.bind_some,
      takeBytes?_eq_some_iff]
    exact ⟨b, rfl, by omega⟩

namespace StandsAt

variable {cs t u : List Char} {pos : Nat}

theorem slice (h : StandsAt cs pos t) : slice? cs pos (pos + byteSize t) = some t :=
  slice?_eq_some_iff.mpr ⟨h, rfl⟩

/-- The first part of a text stands where the text does. -/
theorem left (h : StandsAt cs pos (t ++ u)) : StandsAt cs pos t := by
  obtain ⟨a, b, rfl, hsize⟩ := h
  exact ⟨a, u ++ b, by simp, hsize⟩

/-- The second part of a text stands after the first one. -/
theorem right (h : StandsAt cs pos (t ++ u)) : StandsAt cs (pos + byteSize t) u := by
  obtain ⟨a, b, rfl, hsize⟩ := h
  exact ⟨a ++ t, b, by simp, by rw [byteSize_append, hsize]⟩

theorem le_byteSize (h : StandsAt cs pos t) : pos + byteSize t ≤ byteSize cs := by
  obtain ⟨a, b, rfl, hsize⟩ := h
  simp only [byteSize_append]
  omega

end StandsAt

/-! ### Items in a source -/

/-- **The item stands in the source**: a text of it does. -/
def Item.StandsIn (cs : List Char) : Item → Prop
  | .ident x => ∃ pos t, StandsAt cs pos t ∧ x.WrittenAt pos t
  | .expr e => ∃ pos t, StandsAt cs pos t ∧ e.WrittenAt pos t
  | .stmt s => ∃ ind pos t k, StandsAt cs pos t ∧ s.WrittenAt ind pos t k
  | .body b => ∃ ind pos t k, StandsAt cs pos t ∧ b.WrittenAt ind pos t k
  | .function f => ∃ pos t k, StandsAt cs pos t ∧ f.WrittenAt pos t k

section
variable {cs t u k : List Char} {pos : Nat} {ind : List (List Char)}

theorem Listed.standsAt {α : Type} {R : Nat → List Char → α → Prop} {start : Bool} {xs : List α}
    (h : Listed R start pos t xs) (hs : StandsAt cs pos t) :
    ∀ x ∈ xs, ∃ pos t, StandsAt cs pos t ∧ R pos t x := by
  induction h with
  | nil => simp
  | comma => simp
  | first _ hx _ ih =>
    have hrest := ih hs.right.right
    rintro y (_ | ⟨_, hy⟩)
    · exact ⟨_, _, hs.right.left, hx⟩
    · exact hrest y hy
  | next _ _ hx _ ih =>
    have hrest := ih hs.right.right.right.right
    rintro y (_ | ⟨_, hy⟩)
    · exact ⟨_, _, hs.right.right.right.left, hx⟩
    · exact hrest y hy

/-- All items of an expression stand in the source. -/
theorem Expr.WrittenAt.items {e : Expr} (h : e.WrittenAt pos t) (hs : StandsAt cs pos t) :
    ∀ i ∈ e.items, i.StandsIn cs := by
  induction e using Expr.induction generalizing pos t with
  | call f args span ih =>
    have hself : Item.StandsIn cs (.expr (.call f args span)) := ⟨pos, t, hs, h⟩
    cases h with
    | call hf _ hargs =>
      simp only [Expr.items, List.mem_cons, Expr.mem_itemsAll_iff]
      rintro i (rfl | rfl | ⟨a, ha, hi⟩)
      · exact hself
      · exact ⟨_, _, hs.left, hf⟩
      · obtain ⟨pos', t', hs', ha'⟩ := hargs.standsAt hs.right.right.right.left a ha
        exact ih a ha ha' hs' i hi
  | assign x e span ih =>
    have hself : Item.StandsIn cs (.expr (.assign x e span)) := ⟨pos, t, hs, h⟩
    cases h with
    | assign hx _ _ he =>
      simp only [Expr.items, List.mem_cons]
      rintro i (rfl | rfl | hi)
      · exact hself
      · exact ⟨_, _, hs.left, hx⟩
      · exact ih he hs.right.right.right.right i hi
  | name x span =>
    have hself : Item.StandsIn cs (.expr (.name x span)) := ⟨pos, t, hs, h⟩
    cases h with
    | name hx =>
      simp only [Expr.items, List.mem_cons, List.not_mem_nil, or_false]
      rintro i (rfl | rfl)
      · exact hself
      · exact ⟨_, _, hs, hx⟩
  | string lit span =>
    simp only [Expr.items, List.mem_singleton]
    rintro i rfl
    exact ⟨pos, t, hs, h⟩
  | number κ text span =>
    simp only [Expr.items, List.mem_singleton]
    rintro i rfl
    exact ⟨pos, t, hs, h⟩

/-! ### Items of statements -/

/-- A statement whose items stand where it is written. -/
def Stmt.Placed (cs : List Char) (s : Stmt) : Prop :=
  ∀ {ind : List (List Char)} {pos : Nat} {t k : List Char}, StandsAt cs pos t →
    s.WrittenAt ind pos t k → ∀ i ∈ s.items, i.StandsIn cs

/-- A body whose items stand where it is written. -/
def Body.Placed (cs : List Char) (b : Body) : Prop :=
  ∀ {ind : List (List Char)} {pos : Nat} {t k : List Char}, StandsAt cs pos t →
    b.WrittenAt ind pos t k → ∀ i ∈ b.items, i.StandsIn cs

theorem Block.WrittenAt.items {b : Body} (hb : b.Placed cs) (h : Block.WrittenAt ind pos t k b)
    (hs : StandsAt cs pos t) : ∀ i ∈ b.items, i.StandsIn cs := by
  cases h with
  | mk _ hbody => exact hb hs.right hbody

theorem Branch.WrittenAt.items {w : List Char} {br : Branch} (hb : br.body.Placed cs)
    (h : Branch.WrittenAt w ind pos t k br) (hs : StandsAt cs pos t) :
    ∀ i ∈ br.test.items ++ br.body.items, i.StandsIn cs := by
  cases h with
  | mk _ _ he hbody =>
    intro i hi
    rcases List.mem_append.mp hi with hi | hi
    · exact he.items hs.right.right.left i hi
    · exact hbody.items hb hs.right.right.right i hi

theorem Elifs.WrittenAt.items {brs : List Branch} (hbrs : ∀ br ∈ brs, br.body.Placed cs)
    (h : Elifs.WrittenAt ind pos t k brs) (hs : StandsAt cs pos t) :
    ∀ i ∈ Branch.itemsAll brs, i.StandsIn cs := by
  induction brs generalizing pos t with
  | nil => simp [Branch.itemsAll]
  | cons br brs ih =>
    cases h with
    | cons _ hbr hrest =>
      have hfirst := hbr.items (hbrs br (by simp)) hs.right.right.left
      have hothers := ih (fun br' h' => hbrs br' (List.mem_cons_of_mem br h')) hrest
        hs.right.right.right
      obtain ⟨e, b⟩ := br
      intro i hi
      rw [Branch.itemsAll, ← List.append_assoc, List.mem_append] at hi
      rcases hi with hi | hi
      · exact hfirst i hi
      · exact hothers i hi

theorem Else.WrittenAt.items {o : Option Body} (ho : ∀ b ∈ o, b.Placed cs)
    (h : Else.WrittenAt ind pos t k o) (hs : StandsAt cs pos t) :
    ∀ i ∈ Body.itemsOption o, i.StandsIn cs := by
  cases h with
  | absent => simp [Body.itemsOption]
  | present _ hb => exact hb.items (ho _ rfl) hs.right.right.right

theorem Lines.WrittenAt.items {ss : List Stmt} (hss : ∀ s ∈ ss, s.Placed cs)
    (h : Lines.WrittenAt ind pos t k ss) (hs : StandsAt cs pos t) :
    ∀ i ∈ Stmt.itemsAll ss, i.StandsIn cs := by
  induction ss generalizing pos t with
  | nil => simp [Stmt.itemsAll]
  | cons s ss ih =>
    cases h with
    | cons _ hstmt hrest =>
      have hfirst := hss s (by simp) hs.right.right.left hstmt
      have hothers := ih (fun s' h' => hss s' (List.mem_cons_of_mem s h')) hrest
        hs.right.right.right
      intro i hi
      rcases List.mem_append.mp hi with hi | hi
      · exact hfirst i hi
      · exact hothers i hi

theorem placed_cases : Stmt.Cases (Stmt.Placed cs) (Body.Placed cs) where
  line e span := by
    intro ind pos t k hs h i hi
    rw [Stmt.items, List.mem_cons] at hi
    rcases hi with rfl | hi
    · exact ⟨ind, pos, t, k, hs, h⟩
    · cases h with
      | line he _ => exact he.items hs.left i hi
  block b span hb := by
    intro ind pos t k hs h i hi
    rw [Stmt.items, List.mem_cons] at hi
    rcases hi with rfl | hi
    · exact ⟨ind, pos, t, k, hs, h⟩
    · cases h with
      | block hblock => exact hblock.items hb hs.right i hi
  cond brs o span hbrs ho := by
    intro ind pos t k hs h i hi
    rw [Stmt.items, List.mem_cons] at hi
    rcases hi with rfl | hi
    · exact ⟨ind, pos, t, k, hs, h⟩
    · cases h with
      | @cond _ _ br brs _ _ _ _ _ hbr helifs helse =>
        have hfirst := hbr.items (hbrs br (by simp)) hs.left
        have hothers := helifs.items (fun br' h' => hbrs br' (List.mem_cons_of_mem br h'))
          hs.right.left
        obtain ⟨e, b⟩ := br
        rw [Branch.itemsAll, ← List.append_assoc, List.mem_append, List.mem_append] at hi
        rcases hi with (hi | hi) | hi
        · exact hfirst i hi
        · exact hothers i hi
        · exact helse.items ho hs.right.right i hi
  body ss span hss := by
    intro ind pos t k hs h i hi
    rw [Body.items, List.mem_cons] at hi
    rcases hi with rfl | hi
    · exact ⟨ind, pos, t, k, hs, h⟩
    · cases h with
      | @mk _ _ s ss _ _ _ _ _ _ hstmt hlines =>
        have hfirst := hss s (by simp) hs.right.right.left hstmt
        have hothers := hlines.items (fun s' h' => hss s' (List.mem_cons_of_mem s h'))
          hs.right.right.right
        rcases List.mem_append.mp hi with hi | hi
        · exact hfirst i hi
        · exact hothers i hi

/-! ### Items of programs -/

theorem FunDef.WrittenAt.items {f : FunDef} (h : f.WrittenAt pos t k) (hs : StandsAt cs pos t) :
    ∀ i ∈ f.items, i.StandsIn cs := by
  have hself : Item.StandsIn cs (.function f) := ⟨pos, t, k, hs, h⟩
  cases h with
  | mk _ _ hname _ hparams hbody =>
    intro i hi
    simp only [FunDef.items, List.mem_cons, List.mem_append, List.mem_map] at hi
    rcases hi with rfl | rfl | ⟨x, hx, rfl⟩ | hi
    · exact hself
    · exact ⟨_, _, hs.right.right.left, hname⟩
    · exact hparams.standsAt hs.right.right.right.right.right.left x hx
    · exact hbody.items (placed_cases.body' _) hs.right.right.right.right.right.right.right i hi

theorem Defs.WrittenAt.items {fs : List FunDef} (h : Defs.WrittenAt pos t k fs)
    (hs : StandsAt cs pos t) : ∀ f ∈ fs, ∀ i ∈ f.items, i.StandsIn cs := by
  induction h with
  | nil => simp
  | cons _ hf _ ih =>
    have hothers := ih hs.right.right
    rintro f' (_ | ⟨_, hf'⟩)
    · exact hf.items hs.right.left
    · exact hothers f' hf'

end

/-- **Every item of a parsed program stands in its source.** -/
theorem Program.items_standIn {source : String} {p : Program} (h : Program.parse source = .ok p) :
    ∀ i ∈ p.items, i.StandsIn source.toList := by
  obtain ⟨t, b, z, heq, hdefs, -, -, -, -⟩ := Program.written_of_parse h
  have hs : StandsAt source.toList 0 t := ⟨[], b ++ z, heq, rfl⟩
  intro i hi
  obtain ⟨f, hf, hi⟩ := List.mem_flatMap.mp hi
  exact hdefs.items hs f hf i hi

/-- **The span of an item marks a part of the source** that starts and ends between characters. -/
theorem Item.StandsIn.slice {cs : List Char} {i : Item} (h : i.StandsIn cs) :
    ∃ t, slice? cs i.span.start i.span.stop = some t := by
  cases i with
  | ident x =>
    obtain ⟨pos, t, hs, -, rfl⟩ := h
    exact ⟨t, hs.slice⟩
  | expr e =>
    obtain ⟨pos, t, hs, he⟩ := h
    cases he <;> exact ⟨_, hs.slice⟩
  | stmt s =>
    obtain ⟨ind, pos, t, k, hs, hstmt⟩ := h
    cases hstmt with
    | line _ _ => exact ⟨_, hs.left.slice⟩
    | block _ => exact ⟨_, hs.slice⟩
    | cond _ _ _ => exact ⟨_, hs.slice⟩
  | body b =>
    obtain ⟨ind, pos, t, k, hs, hbody⟩ := h
    cases hbody
    exact ⟨_, hs.slice⟩
  | function f =>
    obtain ⟨pos, t, k, hs, hf⟩ := h
    cases hf
    exact ⟨_, hs.slice⟩

/-- The text of a name that stands in the source. -/
theorem Ident.slice_of_standsIn {cs : List Char} {x : Ident}
    (h : Item.StandsIn cs (.ident x)) :
    slice? cs x.span.start x.span.stop = some x.name.toList := by
  obtain ⟨pos, t, hs, -, rfl⟩ := h
  rw [String.toList_ofList]
  exact hs.slice

end Offside
