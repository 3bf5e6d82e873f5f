import Offside.Builtin
import Offside.Proofs.Decoding
import Offside.Proofs.Lines
import Offside.Proofs.Streams

/-!
# Reading lines

Each call of `input` takes one line off the input, whether it is a text or not, and gives its content
if it is one.  What `print` writes for a string without line feeds is a line with this content, so that
reading undoes printing.

* no byte of a line feed without one: `Text.ten_notMem_bytes`;
* what is read for a line: `Console.LineGives`, and a call takes one line: `Builtin.call_input_of_cut`;
* calls one after the other: `Builtin.callAll`, `Builtin.callAll_inputs`;
* **reading goes through the lines and undoes printing**: `Builtin.input_enumerates`.
-/

namespace Offside

open List (Forall₂ replicate)

/-! ### Bytes of a text -/

namespace Text

/-- The bytes of a text. -/
abbrev bytes (s : String) : List UInt8 :=
  s.toUTF8.data.toList

theorem bytes_append (s t : String) : bytes (s ++ t) = bytes s ++ bytes t := by
  simp [bytes]

theorem toByteArray_bytes (s : String) : (bytes s).toByteArray = s.toUTF8 := by
  apply ByteArray.ext
  simp [bytes]

/-- A byte below 128 is a character of its own. -/
theorem val_of_mem_encoded {c : Char} {b : UInt8} (h : b ∈ String.utf8EncodeChar c)
    (hb : b.toNat < 128) : c.val.toNat = b.toNat := by
  unfold String.utf8EncodeChar at h
  generalize c.val.toNat = v at h ⊢
  simp only at h
  by_cases hv : v ≤ 127
  · rw [if_pos hv] at h
    rw [List.mem_singleton.mp h, toNat_ofNat (by omega)]
  · -- All bytes of a longer encoding are 128 or more.
    have hlarge : ∃ n, 128 ≤ n ∧ n < 256 ∧ b = UInt8.ofNat n := by
      rw [if_neg hv] at h
      split at h
      · simp only [List.mem_cons, List.not_mem_nil, or_false] at h
        rcases h with rfl | rfl <;> exact ⟨_, by omega, by omega, rfl⟩
      split at h
      · simp only [List.mem_cons, List.not_mem_nil, or_false] at h
        rcases h with rfl | rfl | rfl <;> exact ⟨_, by omega, by omega, rfl⟩
      · simp only [List.mem_cons, List.not_mem_nil, or_false] at h
        rcases h with rfl | rfl | rfl | rfl <;> exact ⟨_, by omega, by omega, rfl⟩
    obtain ⟨n, hle, hlt, rfl⟩ := hlarge
    rw [toNat_ofNat hlt] at hb
    omega

theorem ten_notMem_bytes {s : String} (h : '\n' ∉ s.toList) : 10 ∉ bytes s := by
  rw [bytes, toList_toUTF8, List.mem_flatMap]
  rintro ⟨c, hc, hten⟩
  have hval : c.val.toNat = 10 := val_of_mem_encoded hten (by decide)
  have hfeed : c = '\n' := by
    rw [← Char.ofNat_toNat c]
    exact congrArg Char.ofNat hval
  exact h (hfeed ▸ hc)

end Text

open Text (bytes Content)

/-! ### One line -/

namespace Console

/-- **What is read for a line:** its content if its bytes are those of a text. -/
inductive LineGives : List UInt8 → Except Cause Value → Prop
  | text {s t : String} : Content s.toList t.toList → LineGives (bytes s) (.ok (.str t))
  | invalid {line : List UInt8} : (∀ s : String, bytes s ≠ line) →
      LineGives line (.error (.stream "stream did not contain valid UTF-8"))

theorem LineGives.decodeLine_eq {line : List UInt8} {r : Except Cause Value} (h : LineGives line r) :
    (decodeLine line).map Value.str = r := by
  unfold decodeLine
  cases h with
  | @text s t ht =>
    have hs : String.fromUTF8? (bytes s).toByteArray = some s := by
      rw [Text.toByteArray_bytes]
      exact dif_pos s.isValidUTF8
    rw [hs]
    change Except.ok (Value.str (String.ofList (Text.chomp s.toList))) = _
    rw [ht.chomp_eq, String.ofList_toList]
  | invalid hne =>
    have hnone : String.fromUTF8? line.toByteArray = none := by
      rw [Option.eq_none_iff_forall_ne_some]
      intro s hs
      have hbytes : s.toUTF8 = line.toByteArray := by
        unfold String.fromUTF8? at hs
        split at hs
        · cases hs
          rfl
        · cases hs
      exact hne s (by rw [bytes, hbytes]; simp)
    rw [hnone]
    rfl

/-- Something is read for every line, be it a text or not. -/
theorem exists_lineGives (line : List UInt8) : ∃ r, LineGives line r := by
  by_cases h : ∃ s : String, bytes s = line
  · obtain ⟨s, rfl⟩ := h
    obtain ⟨t, ht⟩ := Text.exists_content s.toList
    exact ⟨_, .text (t := String.ofList t) (by rwa [String.toList_ofList])⟩
  · exact ⟨_, .invalid fun s hs => h ⟨s, hs⟩⟩

theorem cutLine_of_notMem {l : List UInt8} (h : 10 ∉ l) : cutLine l = (l, []) := by
  induction l with
  | nil => rfl
  | cons b l ih =>
    rw [List.mem_cons, not_or] at h
    simp [cutLine, Ne.symm h.1, ih h.2]

theorem cutLine_append_cons {l : List UInt8} (h : 10 ∉ l) (rest : List UInt8) :
    cutLine (l ++ 10 :: rest) = (l ++ [10], rest) := by
  induction l with
  | nil => rfl
  | cons b l ih =>
    rw [List.mem_cons, not_or] at h
    simp [cutLine, Ne.symm h.1, ih h.2]

theorem cutLine_of_cut {t line : List UInt8} {lines : List (List UInt8)}
    (h : CutAfter 10 t (line :: lines)) : cutLine t = (line, lines.flatten) := by
  cases h with
  | last _ hl => exact cutLine_of_notMem hl
  | line hl hrest => rw [cutLine_append_cons hl, hrest.flatten_eq]

end Console

/-! ### Lines one after the other -/

namespace Builtin

/-- What a call gives when nothing is left to read. -/
def endOfInput : Except Cause Value :=
  .error (.io "EOF when reading a line")

/-- **A call takes one line off the input.** -/
theorem call_input_of_cut {t line : List UInt8} {lines : List (List UInt8)}
    {r : Except Cause Value} (h : CutAfter 10 t (line :: lines)) (hr : Console.LineGives line r)
    (sink : Sink) : input.call [] ⟨t, sink⟩ = (r, ⟨lines.flatten, sink⟩) := by
  have hne : t ≠ [] := by
    rintro rfl
    exact absurd (h.unique .nil) (by simp)
  change doInput ⟨t, sink⟩ = _
  unfold doInput
  rw [Console.readLine_of_ne_nil hne, Console.cutLine_of_cut h]
  exact Prod.ext hr.decodeLine_eq rfl

theorem call_input_nil (sink : Sink) : input.call [] ⟨[], sink⟩ = (endOfInput, ⟨[], sink⟩) := rfl

/-- Makes calls one after the other, whether they fail or not. -/
def callAll : List (Builtin × List Value) → Console → List (Except Cause Value) × Console
  | [], c => ([], c)
  | (b, args) :: calls, c =>
    let (r, c) := b.call args c
    let (rs, c) := callAll calls c
    (r :: rs, c)

theorem callAll_cons {b : Builtin} {args : List Value} {c c' c'' : Console}
    {r : Except Cause Value} {rs : List (Except Cause Value)} {calls : List (Builtin × List Value)}
    (h : b.call args c = (r, c')) (hs : callAll calls c' = (rs, c'')) :
    callAll ((b, args) :: calls) c = (r :: rs, c'') := by
  rw [callAll, h]
  simp only [hs]

/-- Calls of `input`. -/
def inputs (n : Nat) : List (Builtin × List Value) :=
  replicate n (.input, [])

theorem inputs_succ (n : Nat) : inputs (n + 1) = (.input, []) :: inputs n := rfl

/-- **Calls of `input` take one line after the other** as long as there are lines. -/
theorem callAll_inputs {t : List UInt8} {lines : List (List UInt8)}
    {rs : List (Except Cause Value)} (h : CutAfter 10 t lines) (hrs : Forall₂ Console.LineGives lines rs)
    (sink : Sink) (n : Nat) :
    callAll (inputs n) ⟨t, sink⟩ =
      (rs.take n ++ replicate (n - lines.length) endOfInput, ⟨(lines.drop n).flatten, sink⟩) := by
  induction n generalizing t lines rs with
  | zero => simp [inputs, callAll, h.flatten_eq]
  | succ n ih =>
    cases hrs with
    | nil =>
      obtain rfl : t = [] := h.flatten_eq.symm
      rw [inputs_succ, callAll_cons (call_input_nil sink) (ih .nil .nil)]
      simp [List.replicate_succ]
    | @cons line r lines rs hr hrs =>
      rw [inputs_succ, callAll_cons (call_input_of_cut h hr sink) (ih h.tail hrs)]
      simp

/-! ### Printing -/

/-- A call of `print` for each text. -/
def prints (ts : List String) : List (Builtin × List Value) :=
  ts.map fun t => (.print, [.str t])

/-- The results of calls that give these texts. -/
def texts (ts : List String) : List (Except Cause Value) :=
  ts.map fun t => .ok (.str t)

/-- What is printed for these texts. -/
def printedLines (ts : List String) : List (List UInt8) :=
  ts.map fun t => bytes (t ++ "\n")

theorem call_print (t : String) (stdin : List UInt8) (w : Array UInt8) :
    print.call [.str t] ⟨stdin, { written := w }⟩ =
      (.ok (.str t), ⟨stdin, { written := w ++ (t ++ "\n").toUTF8.data }⟩) := by
  change doPrint [.str t] _ = _
  have hprinted : printed [.str t] = t ++ "\n" := by simp [printed, Value.display]
  unfold doPrint Console.write
  rw [hprinted]
  simp only [Sink.write_unlimited, Sink.fits_unlimited]
  rfl

theorem callAll_prints (ts : List String) (stdin : List UInt8) (w : Array UInt8) :
    ∃ out : Array UInt8, out.toList = w.toList ++ (printedLines ts).flatten ∧
      callAll (prints ts) ⟨stdin, { written := w }⟩ = (texts ts, ⟨stdin, { written := out }⟩) := by
  induction ts generalizing w with
  | nil => exact ⟨w, by simp [printedLines], rfl⟩
  | cons t ts ih =>
    obtain ⟨out, hout, hcalls⟩ := ih (w ++ (t ++ "\n").toUTF8.data)
    refine ⟨out, ?_, callAll_cons (call_print t stdin w) hcalls⟩
    rw [hout]
    simp [printedLines, bytes]

theorem bytes_line (t : String) : bytes (t ++ "\n") = bytes t ++ [10] :=
  Text.bytes_append t "\n"

/-- What is printed for texts without line feeds has a line for each of them. -/
theorem cut_printedLines {ts : List String} (h : ∀ t ∈ ts, '\n' ∉ t.toList) :
    CutAfter 10 (printedLines ts).flatten (printedLines ts) := by
  induction ts with
  | nil => exact .nil
  | cons t ts ih =>
    obtain ⟨ht, hts⟩ := List.forall_mem_cons.mp h
    have hline := CutAfter.line (Text.ten_notMem_bytes ht) (ih hts)
    simpa [printedLines, bytes_line] using hline

theorem lineGives_printedLines {ts : List String} (h : ∀ t ∈ ts, t.toList.getLast? ≠ some '\r') :
    Forall₂ Console.LineGives (printedLines ts) (texts ts) := by
  unfold printedLines texts
  rw [List.forall₂_map_left_iff, List.forall₂_map_right_iff, List.forall₂_same]
  intro t ht
  have hcontent : Content (t ++ "\n").toList t.toList := by
    simpa using Content.lf (h t ht)
  exact .text hcontent

/-- **Reading goes through the lines of the input and undoes printing.**  However the input is cut,
there is one result for each line, and `n` calls give the first `n` of them and leave the other lines;
all calls after the last line fail and read nothing.  Texts without line feeds that do not end with a
carriage return are given back when what was printed for them is read, and then the input is at its
end. -/
theorem input_enumerates :
    (∀ (stdin : List UInt8) (sink : Sink), ∃ lines rs, CutAfter 10 stdin lines ∧
      (∀ ls, CutAfter 10 stdin ls → ls = lines) ∧ Forall₂ Console.LineGives lines rs ∧
      ∀ n, callAll (inputs n) ⟨stdin, sink⟩ =
        (rs.take n ++ replicate (n - lines.length) endOfInput, ⟨(lines.drop n).flatten, sink⟩)) ∧
    ∀ ts : List String, (∀ t ∈ ts, '\n' ∉ t.toList ∧ t.toList.getLast? ≠ some '\r') →
      ∃ out : Array UInt8, callAll (prints ts) {} = (texts ts, { sink := { written := out } }) ∧
        ∀ sink, callAll (inputs (ts.length + 1)) ⟨out.toList, sink⟩ =
          (texts ts ++ [endOfInput], ⟨[], sink⟩) := by
  refine ⟨fun stdin sink => ?_, fun ts hts => ?_⟩
  · obtain ⟨lines, hlines⟩ := CutAfter.exists_cut 10 stdin
    choose result hresult using Console.exists_lineGives
    have hrs : Forall₂ Console.LineGives lines (lines.map result) := by
      rw [List.forall₂_map_right_iff, List.forall₂_same]
      exact fun line _ => hresult line
    exact ⟨lines, _, hlines, fun ls hls => hls.unique hlines, hrs, callAll_inputs hlines hrs sink⟩
  · obtain ⟨out, hout, hprints⟩ := callAll_prints ts [] #[]
    refine ⟨out, hprints, fun sink => ?_⟩
    have hcut := cut_printedLines fun t ht => (hts t ht).1
    have hgives := lineGives_printedLines fun t ht => (hts t ht).2
    have hlines : (printedLines ts).length = ts.length := List.length_map _
    have htexts : (texts ts).length = ts.length := List.length_map _
    rw [hout, List.nil_append, callAll_inputs hcut hgives, List.take_of_length_le (by omega),
      List.drop_of_length_le (by omega), hlines, Nat.add_sub_cancel_left]
    rfl

/-- An empty text, a lone carriage return before other characters, and a character of two bytes. -/
theorem input_enumerates_three : ∃ out : Array UInt8,
    callAll (prints ["", "\rx", "é"]) {} = (texts ["", "\rx", "é"], { sink := { written := out } }) ∧
    callAll (inputs 4) { input := out.toList } =
      ([.ok (.str ""), .ok (.str "\rx"), .ok (.str "é"), endOfInput], {}) := by
  obtain ⟨out, hprints, hinputs⟩ := input_enumerates.2 ["", "\rx", "é"] (by decide)
  exact ⟨out, hprints, hinputs {}⟩

end Builtin

end Offside
