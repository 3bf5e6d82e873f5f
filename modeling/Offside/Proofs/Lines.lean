import Mathlib.Data.List.Forall2
import Offside.Text.Lines

/-!
# Lines

A text or an input is cut into lines after each line feed.  What follows says so without a word on how
it is done: each line but the last one ends with its only line feed, and the last one has none.  The
content of a line is what is left of it without the line feed and a carriage return right before that.

* lines: `CutAfter`, of which there is one list for each text: `CutAfter.exists_cut`,
  `CutAfter.unique`; induction on them: `lineInduction`;
* the content of a line: `Text.Content`, which is what chomping leaves: `Text.Content.chomp_eq`;
* **the lines of a message**: `Text.messageLines_spec`;
* **the line on which an offset lies**, and what stands before the offset on it: `Text.lineAt_lines`,
  `Text.lineSoFar`.
-/

namespace Offside

/-! ### Cutting -/

variable {α : Type} {x : α}

/-- **A list is cut after each `x`.**  All pieces but the last end with their only `x`; the last one
has none and is not empty. -/
inductive CutAfter (x : α) : List α → List (List α) → Prop
  | nil : CutAfter x [] []
  | last {l : List α} : l ≠ [] → x ∉ l → CutAfter x l [l]
  | line {l rest : List α} {ls : List (List α)} : x ∉ l → CutAfter x rest ls →
      CutAfter x (l ++ x :: rest) ((l ++ [x]) :: ls)

/-- The first `x` of a list is found in one place only. -/
theorem eq_of_append_cons {l l' r r' : List α} (hl : x ∉ l) (hl' : x ∉ l')
    (h : l ++ x :: r = l' ++ x :: r') : l = l' ∧ r = r' := by
  rcases List.append_eq_append_iff.mp h with ⟨u, rfl, hu⟩ | ⟨u, rfl, hu⟩
  · cases u with
    | nil => simpa using hu
    | cons a u =>
      obtain ⟨rfl, -⟩ := List.cons.inj hu
      simp at hl'
  · cases u with
    | nil => simpa [eq_comm] using hu
    | cons a u =>
      obtain ⟨rfl, -⟩ := List.cons.inj hu
      simp at hl

namespace CutAfter

variable {t : List α} {ls ls' : List (List α)}

theorem flatten_eq (h : CutAfter x t ls) : ls.flatten = t := by
  induction h with
  | nil => rfl
  | last => simp
  | line _ _ ih => simp [ih]

theorem exists_cut (x : α) (t : List α) : ∃ ls, CutAfter x t ls := by
  induction t with
  | nil => exact ⟨[], .nil⟩
  | cons a t ih =>
    obtain ⟨ls, hls⟩ := ih
    by_cases ha : a = x
    · subst ha
      exact ⟨_, .line (l := []) List.not_mem_nil hls⟩
    · have hcons : ∀ l : List α, x ∉ l → x ∉ a :: l := by
        intro l hl
        simp [hl, Ne.symm ha]
      cases hls with
      | nil => exact ⟨[[a]], .last (by simp) (hcons [] List.not_mem_nil)⟩
      | last _ hx => exact ⟨[a :: t], .last (by simp) (hcons t hx)⟩
      | @line l rest ls hl hls => exact ⟨_, .line (l := a :: l) (hcons l hl) hls⟩

/-- **There is one way to cut a list.** -/
theorem unique (h : CutAfter x t ls) (h' : CutAfter x t ls') : ls = ls' := by
  induction h generalizing ls' with
  | nil =>
    generalize ht : ([] : List α) = t at h'
    cases h' with
    | nil => rfl
    | last hne => exact absurd ht.symm hne
    | line => simp at ht
  | @last l hne hl =>
    cases h' with
    | nil => exact absurd rfl hne
    | last => rfl
    | line => simp at hl
  | @line l rest ls hl _ ih =>
    generalize ht : l ++ x :: rest = t at h'
    cases h' with
    | nil => simp at ht
    | last _ hx =>
      rw [← ht] at hx
      simp at hx
    | line hl' hrest =>
      obtain ⟨rfl, rfl⟩ := eq_of_append_cons hl hl' ht
      rw [ih hrest]

theorem tail {l : List α} (h : CutAfter x t (l :: ls)) : CutAfter x ls.flatten ls := by
  cases h with
  | last => exact .nil
  | line _ hrest => rwa [hrest.flatten_eq]

end CutAfter

/-- **Induction on the lines of a list**: it has no `x`, or there is a list after the first one. -/
theorem lineInduction {motive : List α → Prop} (x : α) (last : ∀ l, x ∉ l → motive l)
    (line : ∀ l rest, x ∉ l → motive rest → motive (l ++ x :: rest)) (t : List α) : motive t := by
  obtain ⟨ls, hls⟩ := CutAfter.exists_cut x t
  induction hls with
  | nil => exact last [] List.not_mem_nil
  | last _ hl => exact last _ hl
  | line hl _ ih => exact line _ _ hl ih

namespace Text

open List (Forall₂)

/-! ### The content of a line -/

/-- **The content of a line:** it may end with a line feed, or with a carriage return and a line feed,
which are no part of the content. -/
inductive Content : List Char → List Char → Prop
  | crlf (t : List Char) : Content (t ++ ['\r', '\n']) t
  | lf {t : List Char} : t.getLast? ≠ some '\r' → Content (t ++ ['\n']) t
  | unended {t : List Char} : t.getLast? ≠ some '\n' → Content t t

theorem Content.chomp_eq {l t : List Char} (h : Content l t) : chomp l = t := by
  unfold chomp
  cases h with
  | crlf => simp
  | @lf t ht =>
    rw [← List.head?_reverse] at ht
    rw [List.reverse_append, List.reverse_singleton, List.singleton_append]
    split
    · next cs heq =>
      rw [(List.cons.inj heq).2] at ht
      exact absurd rfl ht
    · next cs _ heq => rw [← (List.cons.inj heq).2, List.reverse_reverse]
    · next hne => exact absurd rfl (hne _)
  | unended ht =>
    rw [← List.head?_reverse] at ht
    split
    · next cs heq => exact absurd (heq ▸ rfl) ht
    · next cs _ heq => exact absurd (heq ▸ rfl) ht
    · rfl

/-- Every line has a content. -/
theorem exists_content (l : List Char) : ∃ t, Content l t := by
  by_cases hlf : l.getLast? = some '\n'
  · obtain ⟨u, rfl⟩ := List.getLast?_eq_some_iff.mp hlf
    by_cases hcr : u.getLast? = some '\r'
    · obtain ⟨t, rfl⟩ := List.getLast?_eq_some_iff.mp hcr
      exact ⟨t, by simpa using Content.crlf t⟩
    · exact ⟨u, .lf hcr⟩
  · exact ⟨l, .unended hlf⟩

/-! ### The lines of a source -/

variable {l : List Char}

theorem cutLines_of_notMem (h : '\n' ∉ l) : cutLines l = [l] := by
  induction l with
  | nil => rfl
  | cons c l ih =>
    rw [List.mem_cons, not_or] at h
    rw [cutLines, ih h.2]
    rintro rfl
    exact h.1 rfl

theorem cutLines_append_cons (h : '\n' ∉ l) (rest : List Char) :
    cutLines (l ++ '\n' :: rest) = (l ++ ['\n']) :: cutLines rest := by
  induction l with
  | nil => rfl
  | cons c l ih =>
    rw [List.mem_cons, not_or] at h
    rw [List.cons_append, cutLines, ih h.2]
    · rfl
    · rintro rfl
      exact h.1 rfl

theorem splitOn_of_notMem (h : '\n' ∉ l) : l.splitOn '\n' = [l] :=
  List.splitOnP_eq_singleton fun c hc => by
    simpa using ne_of_mem_of_not_mem hc h

theorem splitOn_append_cons (h : '\n' ∉ l) (rest : List Char) :
    (l ++ '\n' :: rest).splitOn '\n' = l :: rest.splitOn '\n' :=
  List.splitOnP_append_cons_of_forall_mem (fun c hc => by
    simpa using ne_of_mem_of_not_mem hc h) _ (by simp) _

/-- A line of a text, with or without the line feed that ends it. -/
structure PieceOf (row piece : List Char) : Prop where
  notMem : '\n' ∉ row
  eq : piece = row ∨ piece = row ++ ['\n']

theorem pieces_cutLines (cs : List Char) : Forall₂ PieceOf (cs.splitOn '\n') (cutLines cs) := by
  induction cs using lineInduction '\n' with
  | last l h =>
    rw [splitOn_of_notMem h, cutLines_of_notMem h]
    exact .cons ⟨h, Or.inl rfl⟩ .nil
  | line l rest h ih =>
    rw [splitOn_append_cons h, cutLines_append_cons h]
    exact .cons ⟨h, Or.inr rfl⟩ ih

/-- **A message has the contents of its lines.** -/
theorem messageLines_spec (cs : List Char) :
    ∃ pieces, CutAfter '\n' cs pieces ∧ Forall₂ Content pieces (messageLines cs) := by
  refine ⟨(cutLines cs).filter (· ≠ []), ?_, ?_⟩
  · induction cs using lineInduction '\n' with
    | last l h =>
      rw [cutLines_of_notMem h]
      by_cases hl : l = []
      · simpa [hl] using CutAfter.nil
      · simpa [hl] using CutAfter.last hl h
    | line l rest h ih =>
      rw [cutLines_append_cons h, List.filter_cons_of_pos (by simp)]
      exact .line h ih
  · rw [messageLines, List.forall₂_map_right_iff, List.forall₂_same]
    intro piece _
    obtain ⟨t, ht⟩ := exists_content piece
    rwa [ht.chomp_eq]

/-! ### Numbers and offsets -/

theorem map_number_numberLines (n s : Nat) (ps : List (List Char)) :
    (numberLines n s ps).map Line.number = List.range' n ps.length := by
  induction ps generalizing n s with
  | nil => rfl
  | cons p ps ih => simp [numberLines, ih, List.range'_succ]

/-- A line has the number of its place in the source. -/
theorem exists_pieceOf_of_mem {rows ps : List (List Char)} (h : Forall₂ PieceOf rows ps) {n s : Nat} :
    ∀ line ∈ numberLines n s ps, ∃ i row, line.number = n + i ∧ rows[i]? = some row ∧
      PieceOf row line.chars := by
  induction h generalizing n s with
  | nil => simp [numberLines]
  | @cons row p rows ps hp _ ih =>
    rw [numberLines, List.forall_mem_cons]
    refine ⟨⟨0, row, rfl, rfl, hp⟩, fun line hline => ?_⟩
    obtain ⟨i, row', hnumber, hrow, hpiece⟩ := ih line hline
    exact ⟨i + 1, row', by omega, hrow, hpiece⟩

theorem exists_row_of_mem {cs : List Char} {line : Line} (h : line ∈ lines cs) :
    ∃ row, (cs.splitOn '\n')[line.number - 1]? = some row ∧ PieceOf row line.chars := by
  obtain ⟨i, row, hnumber, hrow, hpiece⟩ := exists_pieceOf_of_mem (pieces_cutLines cs) line h
  exact ⟨row, by rwa [hnumber, Nat.add_sub_cancel_left], hpiece⟩

theorem length_cutLines (cs : List Char) : (cutLines cs).length = 1 + cs.count '\n' := by
  induction cs using lineInduction '\n' with
  | last l h => rw [cutLines_of_notMem h, List.count_eq_zero_of_not_mem h, List.length_singleton]
  | line l rest h ih =>
    rw [cutLines_append_cons h, List.length_cons, ih, List.count_append,
      List.count_eq_zero_of_not_mem h, List.count_cons_self]
    omega

/-- What stands on the last line of a text. -/
def lineSoFar (cs : List Char) : List Char :=
  (cs.splitOn '\n').getLastD []

theorem lineSoFar_of_notMem (h : '\n' ∉ l) : lineSoFar l = l := by
  rw [lineSoFar, splitOn_of_notMem h]
  rfl

theorem lineSoFar_append_cons (h : '\n' ∉ l) (rest : List Char) :
    lineSoFar (l ++ '\n' :: rest) = lineSoFar rest := by
  unfold lineSoFar
  rw [splitOn_append_cons h]
  cases hrest : rest.splitOn '\n' with
  | nil =>
    have hlength := (pieces_cutLines rest).length_eq
    rw [hrest, length_cutLines, List.length_nil] at hlength
    omega
  | cons row rows => rfl

theorem notMem_lineSoFar (cs : List Char) : '\n' ∉ lineSoFar cs := by
  induction cs using lineInduction '\n' with
  | last l h => rwa [lineSoFar_of_notMem h]
  | line l rest h ih => rwa [lineSoFar_append_cons h]

theorem byteSize_lineSoFar_le (cs : List Char) : byteSize (lineSoFar cs) ≤ byteSize cs := by
  induction cs using lineInduction '\n' with
  | last l h => simp [lineSoFar_of_notMem h]
  | line l rest h ih =>
    rw [lineSoFar_append_cons h, byteSize_append, byteSize_cons]
    omega

theorem cutLines_append_of_notMem (h : '\n' ∉ l) (rest : List Char) :
    cutLines (l ++ rest) = (l ++ (cutLines rest).headD []) :: (cutLines rest).tail := by
  induction rest using lineInduction '\n' with
  | last u hu =>
    rw [cutLines_of_notMem hu, cutLines_of_notMem (by simp [h, hu])]
    rfl
  | line u rest hu =>
    rw [← List.append_assoc, cutLines_append_cons (by simp [h, hu]), cutLines_append_cons hu]
    simp

/-- The lines after the first one start behind a line feed. -/
theorem byteSize_headD_pos (cs : List Char) (h : (cutLines cs).tail ≠ []) :
    0 < byteSize ((cutLines cs).headD []) := by
  induction cs using lineInduction '\n' with
  | last u hu =>
    rw [cutLines_of_notMem hu] at h
    exact absurd rfl h
  | line u rest hu =>
    have hpos := Char.utf8Size_pos '\n'
    rw [cutLines_append_cons hu, List.headD_cons, byteSize_append, byteSize_cons]
    omega

/-- The last line that starts at or before an offset. -/
theorem getLast?_takeWhile (pre rest : List Char) (n s : Nat) :
    ((numberLines n s (cutLines (pre ++ rest))).takeWhile (·.start ≤ s + byteSize pre)).getLast? =
      some ⟨n + pre.count '\n', s + byteSize pre - byteSize (lineSoFar pre),
        lineSoFar pre ++ (cutLines rest).headD []⟩ := by
  induction pre using lineInduction '\n' generalizing n s with
  | last l h =>
    rw [lineSoFar_of_notMem h, List.count_eq_zero_of_not_mem h, Nat.add_zero, Nat.add_sub_cancel,
      cutLines_append_of_notMem h, numberLines, List.takeWhile_cons_of_pos (by simp)]
    -- No further line starts at or before the offset.
    have hnone : (numberLines (n + 1) (s + byteSize (l ++ (cutLines rest).headD []))
        (cutLines rest).tail).takeWhile (·.start ≤ s + byteSize l) = [] := by
      cases htail : (cutLines rest).tail with
      | nil => rfl
      | cons p ps =>
        have hpos := byteSize_headD_pos rest (by simp [htail])
        rw [numberLines, List.takeWhile_cons_of_neg]
        simp only [byteSize_append, decide_eq_true_eq]
        omega
    rw [hnone, List.getLast?_singleton]
  | line l pre h ih =>
    have hsize : s + byteSize (l ++ '\n' :: pre) = s + byteSize (l ++ ['\n']) + byteSize pre := by
      simp only [byteSize_append, byteSize_cons, byteSize_nil]
      omega
    have hcount : n + (l ++ '\n' :: pre).count '\n' = n + 1 + pre.count '\n' := by
      rw [List.count_append, List.count_eq_zero_of_not_mem h, List.count_cons_self]
      omega
    rw [List.append_assoc, List.cons_append, cutLines_append_cons h, numberLines,
      List.takeWhile_cons_of_pos (by simp), List.getLast?_cons, hsize, ih, lineSoFar_append_cons h,
      hcount]
    rfl

/-- **The line on which an offset lies** is counted by the line feeds before the offset. -/
theorem lineAt_lines (pre rest : List Char) :
    lineAt (lines (pre ++ rest)) (byteSize pre) ∈ lines (pre ++ rest) ∧
    lineAt (lines (pre ++ rest)) (byteSize pre) =
      ⟨1 + pre.count '\n', byteSize pre - byteSize (lineSoFar pre),
        lineSoFar pre ++ (cutLines rest).headD []⟩ := by
  have hlast := getLast?_takeWhile pre rest 1 0
  simp only [Nat.zero_add] at hlast
  unfold lineAt
  rw [lines, hlast, Option.getD_some]
  exact ⟨(List.takeWhile_sublist _).mem (List.mem_of_getLast? hlast), rfl⟩

end Text

end Offside
