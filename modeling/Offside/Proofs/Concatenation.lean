import Offside.Proofs.Moving
import Offside.Proofs.Grammar.CompleteProgram

/-!
# Programs one after the other

A source that ends in a line feed has ended all its lines: a text after it cannot close a string of
it, go on in its last body or give its last `if` another branch.  So a second program can follow.

* functions after functions: `Defs.WrittenAt.append`, `Defs.WrittenAt.after_emptyLines`;
* **two programs one after the other are a program**: `Program.parse_append`.
-/

namespace Offside

open Text Pattern

theorem EmptyLines.append {a b : List Char} (ha : EmptyLines a) (hb : EmptyLines b) :
    EmptyLines (a ++ b) := by
  induction ha with
  | nil => exact hb
  | cons hl _ ih =>
    rw [List.append_assoc]
    exact .cons hl ih

/-- What follows a text in a source that ends in a line feed can be followed by more. -/
theorem Exchange.of_newline_append {t b : List Char} (hend : (t ++ b).getLast? = some '\n')
    (k : List Char) : Exchange t b (b ++ k) := by
  cases b with
  | nil =>
    rw [List.append_nil] at hend
    exact .of_newline hend
  | cons x b => exact .of_head rfl

namespace Defs

variable {pos : Nat} {b t u k : List Char} {ds es : List FunDef}

theorem WrittenAt.append (h₁ : WrittenAt pos t (u ++ k) ds)
    (h₂ : WrittenAt (pos + byteSize t) u k es) : WrittenAt pos (t ++ u) k (ds ++ es) := by
  induction ds generalizing pos t with
  | nil =>
    cases h₁
    exact h₂
  | cons d ds ih =>
    cases h₁ with
    | @cons _ _ _ l t v _ hl hd hds =>
      rw [← List.append_assoc] at hd
      have hsize : pos + byteSize (l ++ (t ++ v)) =
          pos + byteSize l + byteSize t + byteSize v := by
        simp only [byteSize_append]
        omega
      rw [hsize] at h₂
      rw [List.append_assoc, List.append_assoc]
      exact .cons hl hd (ih hds h₂)

/-- Empty lines may stand before functions. -/
theorem WrittenAt.after_emptyLines (hb : EmptyLines b) (hne : ds ≠ [])
    (h : WrittenAt (pos + byteSize b) t k ds) : WrittenAt pos (b ++ t) k ds := by
  cases h with
  | nil => exact absurd rfl hne
  | @cons _ _ _ l _ _ _ hl hd hds =>
    have hsize : pos + byteSize b + byteSize l = pos + byteSize (b ++ l) := by
      rw [byteSize_append, Nat.add_assoc]
    rw [hsize] at hd hds
    rw [← List.append_assoc]
    exact .cons (hb.append hl) hd hds

end Defs

namespace Program

/-- A source that ends in a line feed has no unfinished last line. -/
theorem Written.cut_of_newline {cs : List Char} {p : Program} (h : p.Written cs)
    (hend : cs.getLast? = some '\n') :
    ∃ t b, cs = t ++ b ∧ Defs.WrittenAt 0 t b p.funs ∧ EmptyLines b := by
  obtain ⟨t, b, z, rfl, hdefs, -, hb, hz, -⟩ := h
  have hnil : z = [] := by
    rw [← List.append_assoc, List.getLast?_append] at hend
    cases hlast : z.getLast? with
    | none => exact List.getLast?_eq_none_iff.mp hlast
    | some x =>
      rw [hlast, Option.some_or] at hend
      exact absurd (List.mem_of_getLast? (hlast.trans hend)) hz.notMem_newline
  subst hnil
  rw [List.append_nil] at hdefs ⊢
  exact ⟨t, b, rfl, hdefs, hb⟩

theorem Written.append {cs₁ cs₂ : List Char} {p₁ p₂ : Program} (h₁ : p₁.Written cs₁)
    (h₂ : p₂.Written cs₂) (hend : cs₁.getLast? = some '\n') :
    Written (cs₁ ++ cs₂)
      ⟨p₁.funs ++ p₂.funs.map (FunDef.mapSpan (Span.shift (byteSize cs₁))),
        .over 0 (cs₁ ++ cs₂)⟩ := by
  obtain ⟨t₁, b₁, rfl, hdefs₁, hb₁⟩ := h₁.cut_of_newline hend
  obtain ⟨t₂, b₂, z₂, rfl, hdefs₂, hne, hb₂, hz₂, -⟩ := h₂
  -- the functions of the first source stay where they are, before another text
  have hfirst : Defs.WrittenAt 0 t₁ (b₁ ++ (t₂ ++ (b₂ ++ z₂))) p₁.funs := by
    have hmoved := hdefs₁.moved (Span.moves_id 0)
      (.of_newline_append hend (t₂ ++ (b₂ ++ z₂)))
    rwa [List.map_congr_left fun d _ => d.mapSpan_id, List.map_id'] at hmoved
  -- those of the second are moved, and the empty lines go to the first of them
  have hmoves : Span.Moves (.shift (byteSize (t₁ ++ b₁))) 0 (0 + byteSize t₁ + byteSize b₁) := by
    rw [Nat.add_assoc, ← byteSize_append]
    exact Span.moves_shift (byteSize (t₁ ++ b₁)) 0
  have hsecond := hdefs₂.moved hmoves (.refl t₂ (b₂ ++ z₂))
  have hne' : p₂.funs.map (FunDef.mapSpan (.shift (byteSize (t₁ ++ b₁)))) ≠ [] := by
    simpa using hne
  rw [← List.append_assoc] at hfirst
  refine ⟨t₁ ++ (b₁ ++ t₂), b₂, z₂, by simp, ?_, by simp [hne], hb₂, hz₂, rfl⟩
  exact hfirst.append (hsecond.after_emptyLines hb₁ hne')

end Program

end Offside
