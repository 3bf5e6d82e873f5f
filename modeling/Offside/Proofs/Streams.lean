import Offside.Proofs.Blame
import Offside.Proofs.Run.Depth

/-!
# Unread input and limited output

What a run does not read has no influence on it, and a limit on its output shows only when the output
is longer.  In both cases two runs on different consoles do the same until the first of them goes
beyond what the second has: it reads into the part of the input that differs, or writes past the
limit.  From then on its input gets only shorter and its output only longer.

* **unread input has no influence**: `Program.runs_of_unread`;
* where a full sink is reported: `Program.exists_print_of_sinkFull`;
* **a limit on the output only cuts it off**: `Program.runs_limited`.
-/

namespace Offside

/-! ### Unread input -/

namespace Console

/-- A line that ends within a part of the input is cut off from that part. -/
theorem cutLine_append_of_mem {u : List UInt8} (h : 10 ∈ u) (rest : List UInt8) :
    cutLine (u ++ rest) = ((cutLine u).1, (cutLine u).2 ++ rest) := by
  induction u with
  | nil => cases h
  | cons b bs ih =>
    by_cases hb : b = 10
    · simp [cutLine, hb]
    · have hbs : 10 ∈ bs := by
        rcases List.mem_cons.mp h with heq | h
        · exact absurd heq.symm hb
        · exact h
      simp [cutLine, hb, ih hbs]

/-- A line that does not end within a part of the input goes on after it. -/
theorem cutLine_append_of_notMem {u : List UInt8} (h : 10 ∉ u) (rest : List UInt8) :
    (cutLine (u ++ rest)).2 = (cutLine rest).2 := by
  induction u with
  | nil => rfl
  | cons b bs ih =>
    rw [List.mem_cons, not_or] at h
    have hb : b ≠ 10 := fun heq => h.1 heq.symm
    simp [cutLine, hb, ih h.2]

/-- Something is cut off from every input that is not empty. -/
theorem length_cutLine_lt {bs : List UInt8} (h : bs ≠ []) :
    (cutLine bs).2.length < bs.length := by
  have hcut := congrArg List.length (cutLine_append bs)
  have hline : 0 < (cutLine bs).1.length := by
    cases bs with
    | nil => exact absurd rfl h
    | cons b bs =>
      by_cases hb : b = 10
      · simp [cutLine, hb]
      · simp [cutLine, hb]
  rw [List.length_append] at hcut
  omega

theorem readLine_of_ne_nil {c : Console} (h : c.input ≠ []) :
    c.readLine = (decodeLine (cutLine c.input).1, { c with input := (cutLine c.input).2 }) := by
  unfold readLine
  split
  · contradiction
  · rfl

/-- What is read stays read. -/
theorem Next.input_suffix {c c' : Console} (h : c.Next c') : c'.input <:+ c.input := by
  cases h with
  | still => exact List.suffix_refl _
  | write text => exact List.suffix_refl _
  | read =>
    by_cases hc : c.input = []
    · simp [readLine, hc]
    · rw [readLine_of_ne_nil hc]
      exact ⟨(cutLine c.input).1, cutLine_append c.input⟩

end Console

/-- Runs on two inputs that differ in what comes after some point, `r` in the first and `r'` in the
second.  They part when the first reads beyond that point. -/
def Pairing.unread (r r' : List UInt8) (hr : r ≠ []) : Pairing where
  together c c' := ∃ u, c.input = u ++ r ∧ c' = { c with input := u ++ r' }
  apart s _ := ¬ r <:+ s.console.input
  write text h := by
    obtain ⟨u, hc, rfl⟩ := h
    exact Or.inl ⟨rfl, u, hc, rfl⟩
  read {c c'} h := by
    obtain ⟨u, hc, rfl⟩ := h
    have hne : c.input ≠ [] := by simp [hc, hr]
    rw [Console.readLine_of_ne_nil hne, hc]
    by_cases hu : 10 ∈ u
    · have hne' : u ++ r' ≠ [] := List.append_ne_nil_of_left_ne_nil (List.ne_nil_of_mem hu) r'
      rw [Console.readLine_of_ne_nil (c := { c with input := u ++ r' }) hne',
        Console.cutLine_append_of_mem hu, Console.cutLine_append_of_mem hu]
      exact Or.inl ⟨rfl, (Console.cutLine u).2, rfl, rfl⟩
    · refine Or.inr fun hsuffix => ?_
      rw [Standing.console_ofConsole, Console.cutLine_append_of_notMem hu] at hsuffix
      exact Nat.not_le.mpr (Console.length_cutLine_lt hr) hsuffix.length_le
  flush h := by
    obtain ⟨u, hc, rfl⟩ := h
    rfl
  onward h hnext hr := h (hr.trans hnext.input_suffix)
  onward' h := h
  blame _ h := h
  blame' _ h := h
  finish h := by simpa using h

/-- **Unread input has no influence.**  When a run leaves a part of its input unread, it comes to the
same with anything else in the place of that part, and leaves that unread. -/
theorem Program.runs_of_unread {p : Program} {s r : List UInt8} {sink sink' : Sink}
    {result : Except Stop Value} (h : p.Runs ⟨s ++ r, sink⟩ result ⟨r, sink'⟩) (hr : r ≠ [])
    (r' : List UInt8) : p.Runs ⟨s ++ r', sink⟩ result ⟨r', sink'⟩ := by
  obtain ⟨hresult, d, hd⟩ := h
  refine ⟨hresult, d, ?_⟩
  have hanswers : (Pairing.unread r r' hr).Answers
      (p.interpret d { console := ⟨s ++ r, sink⟩ }) (p.interpret d { console := ⟨s ++ r', sink⟩ }) :=
    Pairing.interpret_same d ⟨s, rfl, rfl⟩
  generalize p.interpret d { console := ⟨s ++ r, sink⟩ } = a at hanswers hd
  generalize p.interpret d { console := ⟨s ++ r', sink⟩ } = a' at hanswers
  cases hanswers with
  | @both result₁ m m' hm =>
    obtain ⟨u, hu, hm'⟩ := hm
    obtain ⟨rfl, hconsole⟩ := Prod.mk.inj hd
    rw [hconsole] at hu hm'
    have hnil : u = [] := by simpa using hu
    rw [Answer.outcome, hm', hnil]
    rfl
  | apart hs =>
    have hconsole : a.2.console = ⟨r, sink'⟩ := (Prod.mk.inj hd).2
    have hleft : r <:+ a.standing.console.input := by simp [hconsole]
    exact absurd hleft hs

/-- A program that prints one line of its input leaves a second line unread, which may just as well
not be a text. -/
theorem Program.runs_of_unread_line :
    Program.Runs ⟨[Sample.mainOf [Sample.print [.apply "input" []]]], .initial⟩
      ⟨[97, 10] ++ [255, 10], {}⟩ (.ok (.str "a")) ⟨[255, 10], { written := #[97, 10] }⟩ :=
  Program.runs_of_unread (r := [98])
    (Program.runs_ok (d := 1) (by decide +kernel) (by decide +kernel)) (by simp) [255, 10]

/-! ### Where a full sink is reported -/

/-- Trouble with input or output arises at the call of a predefined function. -/
theorem Point.Raises.of_io {g : Globals} {q : Point} {what : String} {span? : Option Span}
    (h : q.Raises g (.failed ⟨.io what, span?⟩)) : ∃ x es span, q.code = .expr (.call x es span) ∧
      span? = some span ∧ (Cause.io what).FailsIn x.name := by
  cases h with
  | callee hf =>
    unfold Scope.callee at hf
    split at hf <;> cases hf
  | builtin hf hes hcause =>
    have hname := Globals.get?_eq_builtin (Scope.callee_eq_ok hf)
    exact ⟨_, _, _, rfl, rfl, hname ▸ Builtin.failsIn_of_call hcause⟩
  | assign he hset =>
    unfold Scope.assign at hset
    split at hset <;> cases hset
  | name hx =>
    unfold Scope.value at hx
    split at hx <;> cases hx
  | string hlit =>
    obtain ⟨problem, hcause⟩ := StrLit.exists_problem hlit
    cases problem <;> cases hcause

/-- **A full sink is reported with the span of a call of `print`.** -/
theorem Program.exists_print_of_sinkFull {p : Program} {d : Nat} {m m' : Machine}
    {span? : Option Span} (h : p.interpret d m = (.error (.failed ⟨.stream "sink full", span?⟩), m')) :
    ∃ x args span, .expr (.call x args span) ∈ p.items ∧ x.name = "print" ∧ span? = some span := by
  cases span? with
  | none =>
    rcases Program.cause_of_span_none h with hcause | hcause | ⟨_, _, _, hcause⟩ | hflush
    · cases hcause
    · cases hcause
    · cases hcause
    · unfold Console.flush at hflush
      split at hflush
      · have hne : Cause.stream "flush failed" ≠ .stream "sink full" := by decide
        exact absurd (Except.error.inj hflush) hne
      · cases hflush
  | some span =>
    rcases Program.stop_origin h (by simp [Stop.Placed]) with ⟨x, -, hwhy⟩ |
      ⟨g, q, -, hraises, hcode⟩
    · cases hwhy
    · obtain ⟨x, es, span', hq, hspan, hfails⟩ := hraises.of_io
      rw [hq] at hcode
      refine ⟨x, es, span', hcode _ (Expr.mem_items_self _), ?_, hspan⟩
      rcases hfails with ⟨hx, -⟩ | ⟨-, hwhat | hwhat⟩
      · exact hx
      · exact absurd hwhat (by decide)
      · exact absurd hwhat (by decide)

/-! ### Limited output -/

namespace Sink

/-- A sink without a limit takes everything. -/
theorem write_unlimited (w bytes : Array UInt8) (f : Bool) :
    write ⟨w, none, f⟩ bytes = ⟨w ++ bytes, none, f⟩ := by
  simp [write, room]

theorem fits_unlimited (w bytes : Array UInt8) (f : Bool) : fits ⟨w, none, f⟩ bytes = true := by
  simp [fits, room]

theorem toList_take (bytes : Array UInt8) (n : Nat) :
    (bytes.take n).toList = bytes.toList.take n := by
  simp

/-- A sink with a limit takes the bytes up to the limit. -/
theorem write_limited {w : Array UInt8} {n : Nat} (h : w.size ≤ n) (bytes : Array UInt8) (f : Bool) :
    write ⟨w, some n, f⟩ bytes = ⟨(w ++ bytes).take n, some n, f⟩ := by
  have hwritten : w ++ bytes.take (min bytes.size (n - w.size)) = (w ++ bytes).take n := by
    have hw : w.toList.take n = w.toList := List.take_of_length_le (by simpa using h)
    have hbytes : bytes.toList.take (min bytes.size (n - w.size)) =
        bytes.toList.take (n - w.size) := by
      rw [List.take_eq_take_iff, Array.length_toList]
      omega
    apply Array.ext'
    rw [Array.toList_append, toList_take, toList_take, Array.toList_append, List.take_append,
      Array.length_toList, hw, hbytes]
  unfold write room
  simp only [hwritten]

theorem fits_limited_iff {w : Array UInt8} {n : Nat} (h : w.size ≤ n) (bytes : Array UInt8)
    (f : Bool) : fits ⟨w, some n, f⟩ bytes = true ↔ (w ++ bytes).size ≤ n := by
  unfold fits room
  rw [decide_eq_true_iff, Array.size_append]
  simp only
  omega

theorem take_of_size_le {w : Array UInt8} {n : Nat} (h : w.size ≤ n) : w.take n = w := by
  apply Array.ext'
  rw [toList_take, List.take_of_length_le (by simpa using h)]

/-- What is written later does not change the first bytes. -/
theorem take_append_of_le {w : Array UInt8} {n : Nat} (h : n ≤ w.size) (bytes : Array UInt8) :
    (w ++ bytes).take n = w.take n := by
  apply Array.ext'
  rw [toList_take, toList_take, Array.toList_append, List.take_append_of_le_length (by simpa using h)]

end Sink

/-- What is written stays written. -/
theorem Console.Next.written_append {c c' : Console} (h : c.Next c') :
    ∃ bytes, c'.sink.written = c.sink.written ++ bytes := by
  cases h with
  | still => exact ⟨#[], by simp⟩
  | write text => exact ⟨_, rfl⟩
  | read =>
    refine ⟨#[], ?_⟩
    by_cases hc : c.input = []
    · simp [readLine, hc]
    · simp [readLine_of_ne_nil hc]

/-- Runs on one input of which the second may write `n` bytes only.  They part when the first writes
more than that. -/
def Pairing.limited (n : Nat) : Pairing where
  together c c' := ∃ input w, w.size ≤ n ∧ c = ⟨input, ⟨w, none, false⟩⟩ ∧
    c' = ⟨input, ⟨w, some n, false⟩⟩
  apart s s' := n < s.console.sink.written.size ∧
    (∃ span?, s'.why? = some (.failed ⟨.stream "sink full", span?⟩)) ∧
    s'.console.sink = ⟨s.console.sink.written.take n, some n, false⟩
  write text h := by
    obtain ⟨input, w, hw, rfl, rfl⟩ := h
    unfold Console.write
    simp only [Sink.write_unlimited, Sink.write_limited hw, Sink.fits_unlimited, if_true]
    by_cases hfits : (w ++ text.toUTF8.data).size ≤ n
    · rw [if_pos ((Sink.fits_limited_iff hw _ _).mpr hfits)]
      refine Or.inl ⟨rfl, input, w ++ text.toUTF8.data, hfits, rfl, ?_⟩
      rw [Sink.take_of_size_le hfits]
    · rw [if_neg (fun h => hfits ((Sink.fits_limited_iff hw _ _).mp h))]
      exact Or.inr ⟨Nat.not_le.mp hfits, ⟨none, rfl⟩, rfl⟩
  read h := by
    obtain ⟨input, w, hw, rfl, rfl⟩ := h
    cases input with
    | nil => exact Or.inl ⟨rfl, [], w, hw, rfl, rfl⟩
    | cons b bs => exact Or.inl ⟨rfl, _, w, hw, rfl, rfl⟩
  flush h := by
    obtain ⟨input, w, hw, rfl, rfl⟩ := h
    rfl
  onward {c c₁ s why?} h hnext := by
    obtain ⟨hsize, hwhy, hsink⟩ := h
    obtain ⟨bytes, hbytes⟩ := hnext.written_append
    rw [hbytes]
    refine ⟨?_, hwhy, ?_⟩
    · rw [Array.size_append]
      exact Nat.lt_of_lt_of_le hsize (Nat.le_add_right _ _)
    · rw [Sink.take_append_of_le (Nat.le_of_lt hsize)]
      exact hsink
  onward' h := by
    obtain ⟨-, ⟨_, hwhy⟩, -⟩ := h
    cases hwhy
  blame _ h := h
  blame' site h := by
    obtain ⟨hsize, ⟨span?, hwhy⟩, hsink⟩ := h
    refine ⟨hsize, ⟨span? <|> some site, ?_⟩, hsink⟩
    unfold Standing.blamed
    rw [hwhy]
    rfl
  finish {a a'} h := by
    obtain ⟨hsize, ⟨span?, hwhy⟩, hsink⟩ := h
    simp only [Answer.console_standing] at hsize hsink
    rw [Answer.console_standing, Answer.snd_flush]
    obtain ⟨why | v, m'⟩ := a'
    · cases hwhy
      have hflush : m'.console.flush = .ok () := by
        rw [Console.flush, hsink]
        rfl
      rw [Answer.flush_eq, hflush]
      exact ⟨hsize, ⟨span?, rfl⟩, hsink⟩
    · cases hwhy

namespace Program

variable {p : Program} {stdin : List UInt8} {result : Except Stop Value} {c : Console}

/-- A run with a limit on its output ends like one without, or it is stopped by the limit. -/
theorem runs_limited_cases (h : p.Runs { input := stdin } result c) (n : Nat) :
    (c.sink.written.size ≤ n ∧ p.Runs { input := stdin, sink := { limit := some n } } result
      ⟨c.input, { written := c.sink.written, limit := some n }⟩) ∨
    (n < c.sink.written.size ∧ ∃ x args span rest, .expr (.call x args span) ∈ p.items ∧
      x.name = "print" ∧ p.Runs { input := stdin, sink := { limit := some n } }
        (.error (.failed ⟨.stream "sink full", some span⟩))
        ⟨rest, { written := c.sink.written.take n, limit := some n }⟩) := by
  obtain ⟨hresult, d, hd⟩ := h
  have hanswers : (Pairing.limited n).Answers (p.interpret d { console := { input := stdin } })
      (p.interpret d { console := { input := stdin, sink := { limit := some n } } }) :=
    Pairing.interpret_same d ⟨stdin, #[], Nat.zero_le n, rfl, rfl⟩
  generalize p.interpret d { console := { input := stdin } } = a at hanswers hd
  generalize ha' : p.interpret d { console := { input := stdin, sink := { limit := some n } } } = a'
    at hanswers
  cases hanswers with
  | @both result₁ m m' hm =>
    obtain ⟨input, w, hw, hm, hm'⟩ := hm
    obtain ⟨rfl, rfl⟩ := Prod.mk.inj hd
    rw [hm]
    exact Or.inl ⟨hw, hresult, d, by rw [ha', Answer.outcome, hm']⟩
  | apart hs =>
    obtain ⟨hsize, ⟨span?, hwhy⟩, hsink⟩ := hs
    simp only [Answer.console_standing, (Prod.mk.inj hd).2] at hsize hsink
    obtain ⟨why | v, m'⟩ := a'
    · cases hwhy
      obtain ⟨x, args, span, hx, hname, rfl⟩ := exists_print_of_sinkFull ha'
      refine Or.inr ⟨hsize, x, args, span, m'.console.input, hx, hname, by simp, d, ?_⟩
      rw [ha', Answer.outcome, ← hsink]
    · cases hwhy

/-- The output of a run with a limit consists of the first bytes of that of the run without. -/
theorem written_of_limited (h : p.Runs { input := stdin } result c) {n : Nat}
    {r : Except Stop Value} {c' : Console}
    (h' : p.Runs { input := stdin, sink := { limit := some n } } r c') :
    c'.sink.written = c.sink.written.take n := by
  rcases runs_limited_cases h n with ⟨hsize, hruns⟩ | ⟨-, _, _, _, _, -, -, hruns⟩
  · rw [(h'.unique hruns).2, Sink.take_of_size_le hsize]
  · rw [(h'.unique hruns).2]

/-- **A limit on the output only cuts it off.**  When a program comes to an end on a sink without a
limit, then on one that takes `n` bytes it comes to the same if its output has at most `n` bytes.
Otherwise it fails with a full sink at a call of `print`, after the first `n` bytes.  The output under
a lower limit is therefore the start of that under a higher one. -/
theorem runs_limited (h : p.Runs { input := stdin } result c) :
    (∀ n, c.sink.written.size ≤ n → p.Runs { input := stdin, sink := { limit := some n } } result
      ⟨c.input, { written := c.sink.written, limit := some n }⟩) ∧
    (∀ n, n < c.sink.written.size → ∃ x args span rest, .expr (.call x args span) ∈ p.items ∧
      x.name = "print" ∧ p.Runs { input := stdin, sink := { limit := some n } }
        (.error (.failed ⟨.stream "sink full", some span⟩))
        ⟨rest, { written := c.sink.written.take n, limit := some n }⟩) ∧
    (∀ n k, n ≤ k → ∀ r r' c₁ c₂, p.Runs { input := stdin, sink := { limit := some n } } r c₁ →
      p.Runs { input := stdin, sink := { limit := some k } } r' c₂ →
        c₁.sink.written.toList <+: c₂.sink.written.toList) := by
  refine ⟨fun n hn => ?_, fun n hn => ?_, fun n k hnk r r' c₁ c₂ h₁ h₂ => ?_⟩
  · rcases runs_limited_cases h n with ⟨-, hruns⟩ | ⟨hlt, -⟩
    · exact hruns
    · omega
  · rcases runs_limited_cases h n with ⟨hle, -⟩ | ⟨-, hfull⟩
    · omega
    · exact hfull
  · rw [written_of_limited h h₁, written_of_limited h h₂, Sink.toList_take, Sink.toList_take]
    exact List.take_prefix_take_left hnk

/-- `Sample.printAnswer` prints a line of three bytes. -/
theorem runs_limited_printAnswer :
    (∃ span rest, Sample.printAnswer.Runs { sink := { limit := some 1 } }
      (.error (.failed ⟨.stream "sink full", some span⟩)) ⟨rest, { written := #[52], limit := some 1 }⟩) ∧
    Sample.printAnswer.Runs { sink := { limit := some 3 } } (.ok (.str "42"))
      ⟨[], { written := #[52, 50, 10], limit := some 3 }⟩ := by
  have h : Sample.printAnswer.Runs { input := [] } (.ok (.str "42"))
      ⟨[], { written := #[52, 50, 10] }⟩ :=
    runs_ok (d := 1) (by decide +kernel) (by decide +kernel)
  obtain ⟨hwhole, hcut, -⟩ := runs_limited h
  obtain ⟨x, args, span, rest, -, -, hruns⟩ := hcut 1 (by decide)
  exact ⟨⟨span, rest, hruns⟩, hwhole 3 (by decide)⟩

end Program

end Offside
