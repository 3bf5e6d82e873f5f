import Offside.Proofs.Lines
import Offside.Proofs.Places
import Offside.Report.Failure

/-!
# What the plain report shows

A plain report names the lines of the source that a failure spans, counted by the line feeds before it,
and shows each of them once behind its number.  If the span lies on one line, there are carets below,
and they stand under the characters of the span: the spaces before them count characters, as the shown
line does, and reach as far as the number of the line is wide.

* a line as it is shown: `Report.Shown`, `Report.Gutter`, `Report.Row`;
* the message below: `Report.Message`;
* **the right lines, and carets under the right characters**: `Report.classic_aligned`.
-/

namespace Offside.Report

open List (Forall₂ replicate)
open Text

/-! ### Lines as they are shown -/

/-- A line as it is shown: without the carriage returns at its end. -/
structure Shown (row shown : List Char) : Prop where
  eq : ∃ k, row = shown ++ replicate k '\r'
  last : shown.getLast? ≠ some '\r'

/-- What stands before a line: its number at the right of a column of four characters or more. -/
def Gutter (n : Nat) (g : List Char) : Prop :=
  ∃ k, k + n.repr.length = max 4 n.repr.length ∧
    g = "  ".toList ++ replicate k ' ' ++ n.repr.toList ++ " | ".toList

/-- The line of a source with a number, and what stands before it. -/
structure Row (source : List Char) (n : Nat) (g shown : List Char) : Prop where
  line : ∃ row, (source.splitOn '\n')[n - 1]? = some row ∧ Shown row shown
  gutter : Gutter n g

/-- A message with a margin before each of its lines. -/
def Message (message text : List Char) : Prop :=
  ∃ pieces ls, CutAfter '\n' message pieces ∧ Forall₂ Content pieces ls ∧
    text = ['\n'].intercalate (ls.map ("  ".toList ++ ·))

theorem message_indented (message : String) : Message message.toList (indented message).toList := by
  obtain ⟨pieces, hcut, hcontent⟩ := messageLines_spec message.toList
  refine ⟨pieces, _, hcut, hcontent, ?_⟩
  simp [indented, margin, String.toList_intercalate, Function.comp_def]

theorem gutter_numbered (n : Nat) : Gutter n (margin ++ alignRight 4 n ++ " | ").toList := by
  refine ⟨4 - n.repr.length, by omega, ?_⟩
  simp [margin, alignRight, run]

theorem length_gutter {n : Nat} {g : List Char} (h : Gutter n g) :
    g.length = 5 + max 4 n.repr.length := by
  obtain ⟨k, hk, rfl⟩ := h
  simp only [List.length_append, List.length_replicate, String.length_toList]
  change 2 + k + n.repr.length + 3 = _
  omega

/-- What is trimmed off are characters of the class, and all of them. -/
theorem trimEnd_spec (drop : Char → Bool) (cs : List Char) :
    (∃ v, cs = trimEnd drop cs ++ v ∧ ∀ c ∈ v, drop c = true) ∧
    ∀ c, (trimEnd drop cs).getLast? = some c → drop c = false := by
  unfold trimEnd
  refine ⟨⟨(cs.reverse.takeWhile drop).reverse, ?_, fun c hc => ?_⟩, fun c hc => ?_⟩
  · rw [← List.reverse_append, List.takeWhile_append_dropWhile, List.reverse_reverse]
  · exact List.all_eq_true.mp List.all_takeWhile c (List.mem_reverse.mp hc)
  · rw [List.getLast?_reverse] at hc
    have hnot := List.head?_dropWhile_not drop cs.reverse
    rwa [hc] at hnot

theorem shown_of_pieceOf {row piece : List Char} (h : PieceOf row piece) :
    Shown row (trimEnd (fun c => c == '\n' || c == '\r') piece) := by
  obtain ⟨hrow, hpiece⟩ := h
  have htrim : trimEnd (fun c => c == '\n' || c == '\r') piece =
      trimEnd (fun c => c == '\n' || c == '\r') row := by
    rcases hpiece with rfl | rfl
    · rfl
    · simp [trimEnd]
  rw [htrim]
  obtain ⟨⟨v, hv, hdrop⟩, hlast⟩ := trimEnd_spec (fun c => c == '\n' || c == '\r') row
  refine ⟨⟨v.length, ?_⟩, fun hcr => absurd (hlast _ hcr) (by decide)⟩
  -- The characters that are cut off are carriage returns, as there is no line feed among them.
  have hcr : v = replicate v.length '\r' := by
    rw [List.eq_replicate_iff]
    refine ⟨rfl, fun c hc => ?_⟩
    have hne : c ≠ '\n' := by
      rintro rfl
      exact hrow (hv ▸ List.mem_append_right _ hc)
    simpa [hne] using hdrop c hc
  rwa [← hcr]

theorem row_of_mem {cs : List Char} {line : Line} (h : line ∈ lines cs) :
    Row cs line.number (margin ++ alignRight 4 line.number ++ " | ").toList
      (shownLine line).toList := by
  obtain ⟨row, hrow, hpiece⟩ := exists_row_of_mem h
  refine ⟨⟨row, hrow, ?_⟩, gutter_numbered _⟩
  rw [shownLine, String.toList_ofList]
  exact shown_of_pieceOf hpiece

/-! ### Carets -/

theorem charsWithin_append (left rest : List Char) :
    charsWithin (left ++ rest) (byteSize left) = left.length := by
  induction left with
  | nil =>
    cases rest with
    | nil => rfl
    | cons c cs =>
      have hpos := c.utf8Size_pos
      rw [byteSize_nil, List.nil_append, charsWithin, if_neg (by omega), List.length_nil]
  | cons c left ih =>
    rw [List.cons_append, byteSize_cons, charsWithin, if_pos (by omega), Nat.add_sub_cancel_left, ih,
      List.length_cons]

/-- The characters above the carets. -/
theorem take_drop_of_prefix {g left blamed shown : List Char} (h : left ++ blamed <+: shown) :
    ((g ++ shown).drop (g.length + left.length)).take blamed.length = blamed := by
  obtain ⟨rest, rfl⟩ := h
  simp

/-- A part of a line that ends within what is shown of it. -/
theorem prefix_of_shown {row piece shown part rest : List Char} (hpiece : PieceOf row piece)
    (hshown : Shown row shown) (hpart : piece = part ++ rest) (hfeed : '\n' ∉ part)
    (hlen : part.length ≤ shown.length) : part <+: shown := by
  have hrow : part <+: row := by
    rcases hpiece.eq with heq | heq
    · exact ⟨rest, by rw [← hpart, heq]⟩
    · have hconcat : part <+: row ++ ['\n'] := ⟨rest, by rw [← hpart, heq]⟩
      rcases List.prefix_concat_iff.mp hconcat with rfl | hprefix
      · simp at hfeed
      · exact hprefix
  obtain ⟨k, hk⟩ := hshown.eq
  exact List.prefix_of_prefix_length_le hrow ⟨_, hk.symm⟩ hlen

/-! ### Reports -/

/-- **The report on a part of one line**, of which `left` is the part before the blamed one.  The
carets stand as far to the right as the blamed part; where that is shown, it stands above them. -/
def OnOneLine (source left blamed message text : List Char) (n : Nat) : Prop :=
  ∃ g shown, Row source n g shown ∧
    text = "\nError during execution of line ".toList ++ n.repr.toList ++ ":\n\n".toList ++
      (g ++ shown) ++ "\n".toList ++
      (replicate (g.length + left.length) ' ' ++ replicate (max 1 blamed.length) '^') ++
      "\n\n".toList ++ message ∧
    (blamed ≠ [] → left.length + blamed.length ≤ shown.length →
      ((g ++ shown).drop (g.length + left.length)).take (max 1 blamed.length) = blamed)

/-- **The report on several lines**, each with its number. -/
def OnLines (source message text : List Char) (first last : Nat) : Prop :=
  ∃ rows, Forall₂ (fun n row => ∃ g shown, Row source n g shown ∧ row = g ++ shown ++ "\n".toList)
      (List.range' first (last + 1 - first)) rows ∧
    text = "Error during execution of lines ".toList ++ first.repr.toList ++ " - ".toList ++
      last.repr.toList ++ ":\n\n".toList ++ rows.flatten ++ "\n".toList ++ message

theorem numbered_toList (line : Line) : (numbered line).toList =
    (margin ++ alignRight 4 line.number ++ " | ").toList ++ (shownLine line).toList ++
      "\n".toList := by
  simp [numbered]

/-- The numbers from one bound to another among the first numbers. -/
theorem filter_range' {a b n : Nat} (ha : 1 ≤ a) (hab : a ≤ b) (hb : b ≤ n) :
    (List.range' 1 n).filter (fun k => a ≤ k && k ≤ b) = List.range' a (b + 1 - a) := by
  have hsplit : List.range' 1 n =
      List.range' 1 (a - 1) ++ (List.range' a (b + 1 - a) ++ List.range' (b + 1) (n - b)) := by
    have hupper : List.range' a (b + 1 - a) ++ List.range' (b + 1) (n - b) =
        List.range' a (n + 1 - a) := by
      have happend := List.range'_append_1 (s := a) (m := b + 1 - a) (n := n - b)
      rwa [show a + (b + 1 - a) = b + 1 by omega, show b + 1 - a + (n - b) = n + 1 - a by omega]
        at happend
    have happend := List.range'_append_1 (s := 1) (m := a - 1) (n := n + 1 - a)
    rw [show 1 + (a - 1) = a by omega, show a - 1 + (n + 1 - a) = n by omega] at happend
    rw [hupper, happend]
  -- The numbers on either side of the two bounds are left out.
  have hout : ∀ ks : List Nat, (∀ k ∈ ks, k < a ∨ b < k) →
      ks.filter (fun k => a ≤ k && k ≤ b) = [] := by
    intro ks hks
    rw [List.filter_eq_nil_iff]
    intro k hk
    have hside := hks k hk
    simp only [Bool.and_eq_true, decide_eq_true_eq]
    omega
  have hlow := hout (List.range' 1 (a - 1)) fun k hk => by
    rw [List.mem_range'_1] at hk
    omega
  have hhigh := hout (List.range' (b + 1) (n - b)) fun k hk => by
    rw [List.mem_range'_1] at hk
    omega
  have hmid : (List.range' a (b + 1 - a)).filter (fun k => a ≤ k && k ≤ b) =
      List.range' a (b + 1 - a) := by
    rw [List.filter_eq_self]
    intro k hk
    rw [List.mem_range'_1] at hk
    simp only [Bool.and_eq_true, decide_eq_true_eq]
    omega
  rw [hsplit, List.filter_append, List.filter_append, hlow, hmid, hhigh, List.nil_append,
    List.append_nil]

theorem onLines_severalLines {cs : List Char} {first last : Nat} (message : String)
    (hfirst : 1 ≤ first) (hle : first ≤ last) (hlast : last ≤ 1 + cs.count '\n') :
    OnLines cs (indented message).toList (severalLines (lines cs) first last message).toList first
      last := by
  have hnumbers : ((lines cs).filter fun l => first ≤ l.number && l.number ≤ last).map Line.number =
      List.range' first (last + 1 - first) := by
    have hall : (lines cs).map Line.number = List.range' 1 (1 + cs.count '\n') := by
      rw [lines, map_number_numberLines, length_cutLines]
    rw [← filter_range' hfirst hle hlast, ← hall, List.filter_map]
    rfl
  refine ⟨(((lines cs).filter fun l => first ≤ l.number && l.number ≤ last).map numbered).map
    String.toList, ?_, ?_⟩
  · rw [← hnumbers, List.map_map, List.forall₂_map_left_iff, List.forall₂_map_right_iff,
      List.forall₂_same]
    intro line hline
    exact ⟨_, _, row_of_mem (List.mem_filter.mp hline).1, numbered_toList line⟩
  · unfold severalLines
    simp only [String.toList_append, String.toList_join, List.flatMap_def]

theorem carets_toList {left rest g : List Char} {line : Line} (hg : Gutter line.number g)
    (hchars : line.chars = left ++ rest) (n : Nat) :
    (carets line (line.start + byteSize left) n).toList =
      replicate (g.length + left.length) ' ' ++ replicate (max 1 n) '^' ++ "\n".toList := by
  have hcolumn : line.column (line.start + byteSize left) = left.length + 1 := by
    rw [Line.column, hchars, Nat.add_sub_cancel_left, charsWithin_append]
  have hwidth : 2 + (left.length + 1 + gutter line) = g.length + left.length := by
    rw [length_gutter hg, gutter]
    omega
  have hmargin : margin.toList = replicate 2 ' ' := rfl
  simp only [carets, run, String.toList_append, String.toList_ofList]
  rw [hcolumn, hmargin, List.replicate_append_replicate, hwidth, Nat.max_comm]

theorem onOneLine_oneLine {cs left blamed rest : List Char} {line : Line} (message : String)
    (hline : line ∈ lines cs) (hchars : line.chars = left ++ (blamed ++ rest))
    (hfeed : '\n' ∉ left ++ blamed) :
    OnOneLine cs left blamed (indented message).toList
      (oneLine line (line.start + byteSize left) blamed message).toList line.number := by
  have hgutter := gutter_numbered line.number
  refine ⟨(margin ++ alignRight 4 line.number ++ " | ").toList, (shownLine line).toList,
    row_of_mem hline, ?_, fun hne hlen => ?_⟩
  · have hfeeds : "\n\n".toList = "\n".toList ++ "\n".toList := by decide
    unfold oneLine
    simp only [String.toList_append, numbered_toList, carets_toList hgutter hchars, hfeeds,
      List.append_assoc]
  · obtain ⟨row, -, hpiece⟩ := exists_row_of_mem hline
    have hpart : line.chars = left ++ blamed ++ rest := by rw [hchars, List.append_assoc]
    have hshown : Shown row (shownLine line).toList := by
      rw [shownLine, String.toList_ofList]
      exact shown_of_pieceOf hpiece
    have hpos := List.length_pos_iff.mpr hne
    rw [Nat.max_eq_right hpos]
    exact take_drop_of_prefix (prefix_of_shown hpiece hshown hpart hfeed (by simpa using hlen))

section

variable (message : String) {source : String} {pre blamed post : List Char}
  (hsource : source.toList = pre ++ blamed ++ post)
include hsource

/-- A span without a line feed is reported on its line. -/
theorem classic_of_notMem (h : '\n' ∉ blamed) :
    ∃ text, classic source message (some ⟨byteSize pre, byteSize (pre ++ blamed)⟩) = some text ∧
      OnOneLine source.toList (lineSoFar pre) blamed (indented message).toList text.toList
        (1 + pre.count '\n') := by
  obtain ⟨hmem, hfirst⟩ := lineAt_lines pre (blamed ++ post)
  obtain ⟨-, hlast⟩ := lineAt_lines (pre ++ blamed) post
  rw [← List.append_assoc, ← hsource] at hmem hfirst
  rw [← hsource, List.count_append, List.count_eq_zero_of_not_mem h, Nat.add_zero] at hlast
  have hslice : slice? source.toList (byteSize pre) (byteSize (pre ++ blamed)) = some blamed := by
    rw [slice?_eq_some_iff, byteSize_append]
    exact ⟨⟨pre, post, by rw [hsource, List.append_assoc], rfl⟩, rfl⟩
  have hstart : (lineAt (lines source.toList) (byteSize pre)).start + byteSize (lineSoFar pre) =
      byteSize pre := by
    have hle := byteSize_lineSoFar_le pre
    rw [hfirst]
    simp only
    omega
  have hchars : (lineAt (lines source.toList) (byteSize pre)).chars =
      lineSoFar pre ++ (blamed ++ (cutLines post).headD []) := by
    rw [hfirst, cutLines_append_of_notMem h, List.headD_cons]
  have hfeed : '\n' ∉ lineSoFar pre ++ blamed := by
    simp [notMem_lineSoFar, h]
  have hreport := onOneLine_oneLine message hmem hchars hfeed
  rw [hstart, hfirst] at hreport
  refine ⟨_, ?_, hreport⟩
  unfold classic
  simp only [hslice, hfirst, hlast, if_true, Option.map_some]

/-- A span with a line feed is reported on all its lines. -/
theorem classic_of_mem (h : '\n' ∈ blamed) :
    ∃ text, classic source message (some ⟨byteSize pre, byteSize (pre ++ blamed)⟩) = some text ∧
      OnLines source.toList (indented message).toList text.toList (1 + pre.count '\n')
        (1 + (pre ++ blamed).count '\n') := by
  obtain ⟨-, hfirst⟩ := lineAt_lines pre (blamed ++ post)
  obtain ⟨-, hlast⟩ := lineAt_lines (pre ++ blamed) post
  rw [← List.append_assoc, ← hsource] at hfirst
  rw [← hsource] at hlast
  have hcount : pre.count '\n' < (pre ++ blamed).count '\n' := by
    have hpos := List.count_pos_iff.mpr h
    rw [List.count_append]
    omega
  have hall : (pre ++ blamed).count '\n' ≤ source.toList.count '\n' := by
    rw [hsource]
    simp only [List.count_append]
    omega
  refine ⟨_, ?_, onLines_severalLines message (by omega) (by omega) (by omega)⟩
  unfold classic
  simp only [hfirst, hlast]
  rw [if_neg (by omega)]

end

/-- **The plain report shows the right lines, and carets under the right characters.**  Let the span of
a failure start after `pre` and cover `blamed`.  If both ends lie on one line, that line is named and
shown behind its number, and the characters of the span stand right above the carets if they are shown
at all; if not, the lines from the first to the last are named, and each is shown behind its number.
The message follows, with a margin before each of its lines. -/
theorem classic_aligned (file : SourceFile) (f : Failure) (pre blamed post : List Char)
    (hsource : file.text.toList = pre ++ blamed ++ post)
    (hspan : f.span = some ⟨byteSize pre, byteSize (pre ++ blamed)⟩) :
    ∃ text message : String, classicOf file f = some text ∧
      Message f.cause.message.toList message.toList ∧
      ((pre ++ blamed).count '\n' = pre.count '\n' →
        OnOneLine file.text.toList (lineSoFar pre) blamed message.toList text.toList
          (1 + pre.count '\n')) ∧
      (pre.count '\n' < (pre ++ blamed).count '\n' →
        OnLines file.text.toList message.toList text.toList (1 + pre.count '\n')
          (1 + (pre ++ blamed).count '\n')) := by
  unfold classicOf
  rw [hspan, List.count_append]
  by_cases hfeed : '\n' ∈ blamed
  · have hpos := List.count_pos_iff.mpr hfeed
    obtain ⟨text, htext, hlines⟩ := classic_of_mem f.cause.message hsource hfeed
    rw [List.count_append] at hlines
    exact ⟨text, _, htext, message_indented _, fun hsame => by omega, fun _ => hlines⟩
  · have hzero := List.count_eq_zero_of_not_mem hfeed
    obtain ⟨text, htext, hline⟩ := classic_of_notMem f.cause.message hsource hfeed
    exact ⟨text, _, htext, message_indented _, fun _ => hline, fun hless => by omega⟩

/-- A call on a second line, between characters of two bytes and a carriage return. -/
theorem classic_aligned_umlaut : ∃ text message : String,
    classicOf { text := "x\r\nü = ä(1)\r\n" } ⟨.undefinedFunction "ä", some ⟨8, 13⟩⟩ = some text ∧
    Message "call of undefined function: ä".toList message.toList ∧
    OnOneLine "x\r\nü = ä(1)\r\n".toList "ü = ".toList "ä(1)".toList message.toList text.toList 2 := by
  obtain ⟨text, message, htext, hmessage, hline, -⟩ :=
    classic_aligned { text := "x\r\nü = ä(1)\r\n" } ⟨.undefinedFunction "ä", some ⟨8, 13⟩⟩
      "x\r\nü = ".toList "ä(1)".toList "\r\n".toList (by decide) (by decide)
  have hleft : lineSoFar "x\r\nü = ".toList = "ü = ".toList := by decide
  have hnumber : 1 + "x\r\nü = ".toList.count '\n' = 2 := by decide
  have hcount : ("x\r\nü = ".toList ++ "ä(1)".toList).count '\n' = "x\r\nü = ".toList.count '\n' := by
    decide
  have hreport := hline hcount
  rw [hleft, hnumber] at hreport
  exact ⟨text, message, htext, hmessage, hreport⟩

end Offside.Report
