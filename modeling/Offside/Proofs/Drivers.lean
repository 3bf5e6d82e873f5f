import Offside.Command
import Offside.Proofs.Decoding
import Offside.Proofs.NoPanic
import Offside.Proofs.Streams

/-!
# The command and the library

A source can be run in two ways: by the command, which reads and writes the streams of its process and
reports what goes wrong, and by the library, which takes its input and gives its output as texts.  Both
come to the same.  What the flags of the command change is only what it shows on the error stream, and
there it shows one report if something went wrong, and none otherwise.

* everything that a program writes is a text: `Program.exists_output`;
* how a session ends, by what came of its two steps: `Command.sessionOn_of_parseError`,
  `Command.sessionOn_of_ok`, `Command.sessionOn_of_stop`;
* every way of running a file can be asked for: `Command.exists_request`;
* **the two ways agree**: `Command.drivers_agree`.
-/

namespace Offside

/-! ### Output is a text -/

/-- A run beside itself, on a sink that takes everything and has been given texts only. -/
def Pairing.textual : Pairing where
  together c c' := c' = c ∧ ∃ s : String, c.sink = { written := s.toUTF8.data }
  apart _ _ := False
  write {c c'} text h := by
    obtain ⟨rfl, s, hs⟩ := h
    refine Or.inl ⟨rfl, rfl, s ++ text, ?_⟩
    unfold Console.write
    rw [hs]
    simp [Sink.write_unlimited]
  read {c c'} h := by
    obtain ⟨rfl, s, hs⟩ := h
    refine Or.inl ⟨rfl, rfl, s, ?_⟩
    by_cases hc : c'.input = []
    · simp [Console.readLine, hc, hs]
    · rw [Console.readLine_of_ne_nil hc]
      exact hs
  flush h := by rw [h.1]
  onward h _ := h
  onward' h := h
  blame _ h := h
  blame' _ h := h
  finish h := h

/-- **Everything that a program writes is a text.** -/
theorem Program.exists_output (p : Program) (depth : Nat) (stdin : List UInt8) :
    ∃ s : String, (p.interpret depth { console := { input := stdin } }).2.console.sink.written =
      s.toUTF8.data := by
  have hanswers : Pairing.textual.Answers (p.interpret depth { console := { input := stdin } })
      (p.interpret depth { console := { input := stdin } }) :=
    Pairing.interpret_same depth ⟨rfl, "", rfl⟩
  generalize p.interpret depth { console := { input := stdin } } = a at hanswers
  cases hanswers with
  | both hm =>
    obtain ⟨-, s, hs⟩ := hm
    exact ⟨s, by rw [hs]⟩
  | apart h => exact h.elim

namespace Command

/-! ### How a session ends -/

/-- What is told while the source is read. -/
def parsedNotices (o : Options) (t : Timing) : List Notice :=
  if o.verbose then [.progress "Parsing...", .progress ("\rParsed [" ++ t.parsing ++ "]\n")] else []

/-- What is told while the program is run. -/
def ranNotices (o : Options) (t : Timing) : List Notice :=
  if o.verbose then
    [.progress "Running...\n", .progress ("Ran the program in [" ++ t.running ++ "]\n")]
  else []

/-- The report on a failure, in the form asked for. -/
def Notice.ofFailure (rich : Bool) (f : Failure) : Notice :=
  if rich then .framed f.diagnostic else .plain (.failed f)

/-- The report on a run that stopped, in the form asked for. -/
def Notice.ofStop (rich : Bool) : Stop → Notice
  | .failed f => .ofFailure rich f
  | why => .plain why

/-- The reports among what was shown. -/
def Session.reports (s : Session) : List Notice :=
  s.notices.filter Notice.isReport

/-- The machine on which a program finds an input. -/
def machineOn (input : String) : Machine :=
  { console := { input := input.toUTF8.data.toList } }

variable {source input : String} {depth : Nat} {p : Program} {m : Machine}

theorem outcome_of_parse (h : Program.parse source = .ok p) :
    outcome depth source input.toUTF8.data.toList = .ok (p.interpret depth (machineOn input)) := by
  rw [outcome, h]
  rfl

section

variable (o : Options) (t : Timing)

theorem sessionOn_of_parseError {e : ParseError} (depth : Nat) (input : String)
    (h : Program.parse source = .error e) :
    sessionOn depth t o source input.toUTF8.data.toList =
      (1, { options := o, source, hasErrors := true,
            console := { input := input.toUTF8.data.toList },
            notices := parsedNotices o t ++ [.framed e.diagnostic] }) := by
  rw [sessionOn, outcome, h]
  rcases o with ⟨name, _ | _, rich⟩ <;> rfl

theorem sessionOn_of_ok {v : Value} (hparse : Program.parse source = .ok p)
    (hrun : p.interpret depth (machineOn input) = (.ok v, m)) :
    sessionOn depth t o source input.toUTF8.data.toList =
      (0, { options := o, source, console := m.console,
            notices := parsedNotices o t ++ ranNotices o t }) := by
  rw [sessionOn, outcome_of_parse hparse, hrun]
  rcases o with ⟨name, _ | _, rich⟩ <;> rfl

theorem sessionOn_of_stop {why : Stop} (hparse : Program.parse source = .ok p)
    (hrun : p.interpret depth (machineOn input) = (.error why, m)) :
    ∃ hasErrors, sessionOn depth t o source input.toUTF8.data.toList =
      (1, { options := o, source, hasErrors, console := m.console,
            notices := parsedNotices o t ++ ranNotices o t ++ [.ofStop o.rich why] }) := by
  rw [sessionOn, outcome_of_parse hparse, hrun]
  refine ⟨(session o t source { input := input.toUTF8.data.toList }
    (.ok (.error why, m))).2.hasErrors, ?_⟩
  rcases o with ⟨name, _ | _, _ | _⟩ <;> cases why <;> rfl

end

/-! ### What a session shows -/

/-- **A session with one report**, which is shown last: before it, the command tells what it is doing
if it is to be verbose. -/
structure Session.EndsWith (s : Session) (n : Notice) : Prop where
  reports : s.reports = [n]
  stderr : ∃ progress, s.stderr = progress ++ n.text s.file ∧
    (s.options.verbose = false → progress = "")

theorem isReport_of_mem_notices {o : Options} {t : Timing} {n : Notice}
    (h : n ∈ parsedNotices o t ++ ranNotices o t) : n.isReport = false := by
  unfold parsedNotices ranNotices at h
  split at h
  · simp only [List.cons_append, List.nil_append, List.mem_cons, List.not_mem_nil, or_false] at h
    rcases h with rfl | rfl | rfl | rfl <;> rfl
  · cases h

/-- Telling what the command is doing reports nothing. -/
theorem filter_isReport_of_prefix {o : Options} {t : Timing} {before : List Notice}
    (h : before <+: parsedNotices o t ++ ranNotices o t) : before.filter Notice.isReport = [] := by
  rw [List.filter_eq_nil_iff]
  intro n hn
  rw [isReport_of_mem_notices (h.subset hn)]
  decide

theorem notices_eq_nil_of_quiet {o : Options} (t : Timing) (h : o.verbose = false) :
    parsedNotices o t ++ ranNotices o t = [] := by
  simp [parsedNotices, ranNotices, h]

theorem Session.EndsWith.of_notices {s : Session} {t : Timing} {n : Notice} {before : List Notice}
    (hn : n.isReport = true) (hbefore : before <+: parsedNotices s.options t ++ ranNotices s.options t)
    (h : s.notices = before ++ [n]) : s.EndsWith n where
  reports := by
    rw [Session.reports, h, List.filter_append, filter_isReport_of_prefix hbefore]
    simp [hn]
  stderr := by
    refine ⟨String.join (before.map (Notice.text s.file)), ?_, fun hquiet => ?_⟩
    · rw [Session.stderr, h, List.map_append, String.join_append]
      simp
    · rw [notices_eq_nil_of_quiet t hquiet, List.prefix_nil] at hbefore
      rw [hbefore]
      rfl

/-- A report is never empty. -/
theorem Notice.text_ne_empty {n : Notice} (h : n.isReport = true) (file : SourceFile) :
    n.text file ≠ "" := by
  cases n with
  | progress text => cases h
  | framed d => simp [Notice.text, Report.framed, String.join_cons, String.append_eq_empty_iff]
  | plain why =>
    unfold Notice.text Report.ofStop
    cases why with
    | failed f =>
      cases hreport : Report.classicOf file f <;>
        simp [Report.ofFailure, hreport, String.append_eq_empty_iff]
    | invalidInteger text => simp [String.append_eq_empty_iff]
    | tooDeep => simp [String.append_eq_empty_iff]

/-- So a session with a report shows something. -/
theorem Session.EndsWith.stderr_ne_empty {s : Session} {n : Notice} (h : s.EndsWith n)
    (hn : n.isReport = true) : s.stderr ≠ "" := by
  obtain ⟨progress, hstderr, -⟩ := h.stderr
  rw [hstderr]
  intro hempty
  exact Notice.text_ne_empty hn s.file (String.append_eq_empty_iff.mp hempty).2

theorem Notice.isReport_ofStop (rich : Bool) (why : Stop) :
    (Notice.ofStop rich why).isReport = true := by
  cases why <;> cases rich <;> rfl

/-- The report on a failure of a parsed program is the one that was asked for. -/
theorem Notice.text_ofFailure {source : String} {p : Program} (hparse : Program.parse source = .ok p)
    {depth : Nat} {m m' : Machine} {f : Failure} (h : p.interpret depth m = (.error (.failed f), m'))
    (rich : Bool) (name : String) :
    Report.ofFailure rich ⟨name, source⟩ f = some ((Notice.ofFailure rich f).text ⟨name, source⟩) := by
  cases rich with
  | true => rfl
  | false =>
    have hfailure : (p.interpret depth m).failure? = some f := by
      rw [h]
      rfl
    obtain ⟨text, htext⟩ := Program.exists_report hparse name hfailure
    simp [Report.ofFailure, Notice.ofFailure, Notice.text, Report.ofStop, htext]

/-! ### What the library gives -/

theorem executeText_of_parseError {e : ParseError} (h : Program.parse source = .error e) :
    executeText source depth input = .error e := by
  unfold executeText executeSource
  rw [h]
  rfl

/-- A run that ends gives its output. -/
theorem executeText_of_ok {v : Value} (hparse : Program.parse source = .ok p)
    (hrun : p.interpret depth (machineOn input) = (.ok v, m)) :
    ∃ out, executeText source depth input = .ok (.ok out) ∧
      m.console.sink.written = out.toUTF8.data := by
  obtain ⟨out, hout⟩ := p.exists_output depth input.toUTF8.data.toList
  have hrun' : p.interpret depth { console := { input := input.toUTF8.data.toList } } =
      (.ok v, m) := hrun
  rw [hrun'] at hout
  have hexecute : p.execute depth input.toUTF8.data.toList = .ok out.toUTF8.data := by
    rw [Program.execute, hrun', ← hout]
  refine ⟨out, ?_, hout⟩
  rw [executeText, executeSource, hparse, Except.map, hexecute]
  exact congrArg (fun text => Except.ok (Except.ok text)) (Text.decodeLossy_toUTF8 out)

/-- A run that stops gives the reason. -/
theorem executeText_of_stop {why : Stop} (hparse : Program.parse source = .ok p)
    (hrun : p.interpret depth (machineOn input) = (.error why, m)) :
    executeText source depth input = .ok (.error why) := by
  have hrun' : p.interpret depth { console := { input := input.toUTF8.data.toList } } =
      (.error why, m) := hrun
  have hexecute : p.execute depth input.toUTF8.data.toList = .error why := by
    rw [Program.execute, hrun']
  rw [executeText, executeSource, hparse, Except.map, hexecute]
  rfl

/-! ### What it is to agree -/

/-- **The command does to the streams what the library says.**  Of what the command does, this holds
the exit code, the output, and the input that is left unread. -/
structure Agrees (depth : Nat) (source input : String) (exit : Nat) (stdout : Array UInt8)
    (unread : List UInt8) : Prop where
  success : exit = 0 ↔ ∃ out, executeText source depth input = .ok (.ok out)
  output : ∀ out, executeText source depth input = .ok (.ok out) → stdout = out.toUTF8.data
  parseError : ∀ e, executeText source depth input = .error e →
    exit = 1 ∧ stdout = #[] ∧ unread = input.toUTF8.data.toList
  failure : ∀ why, executeText source depth input = .ok (.error why) →
    exit = 1 ∧ ∃ p m, Program.parse source = .ok p ∧
      p.interpret depth (machineOn input) = (.error why, m) ∧
      stdout = m.console.sink.written ∧ unread = m.console.input

/-- **A session shows what the library says**: the one error, in the form asked for, or nothing but
what it is doing. -/
structure Session.Shows (s : Session) (depth : Nat) (source input : String) (exit : Nat) : Prop where
  parseError : ∀ e, executeText source depth input = .error e → s.EndsWith (.framed e.diagnostic)
  stop : ∀ why, executeText source depth input = .ok (.error why) →
    s.EndsWith (.ofStop s.options.rich why)
  failure : ∀ f, executeText source depth input = .ok (.error (.failed f)) →
    Report.ofFailure s.options.rich s.file f = some ((Notice.ofFailure s.options.rich f).text s.file)
  success : ∀ out, executeText source depth input = .ok (.ok out) → s.reports = []
  quiet : s.options.verbose = false → (s.stderr = "" ↔ exit = 0)

theorem agrees_of_parseError {e : ParseError} (h : executeText source depth input = .error e) :
    Agrees depth source input 1 #[] input.toUTF8.data.toList := by
  constructor <;> simp [h]

theorem agrees_of_ok {out : String} {unread : List UInt8}
    (h : executeText source depth input = .ok (.ok out)) :
    Agrees depth source input 0 out.toUTF8.data unread := by
  constructor <;> simp [h]

theorem agrees_of_stop {why : Stop} (hparse : Program.parse source = .ok p)
    (hrun : p.interpret depth (machineOn input) = (.error why, m)) :
    Agrees depth source input 1 m.console.sink.written m.console.input where
  success := by simp [executeText_of_stop hparse hrun]
  output := by simp [executeText_of_stop hparse hrun]
  parseError := by simp [executeText_of_stop hparse hrun]
  failure why' h := by
    rw [executeText_of_stop hparse hrun] at h
    obtain rfl : why = why' := by simpa using h
    exact ⟨rfl, p, m, hparse, hrun, rfl, rfl⟩

theorem Session.shows_of_parseError {s : Session} {e : ParseError}
    (h : executeText source depth input = .error e) (hs : s.EndsWith (.framed e.diagnostic)) :
    s.Shows depth source input 1 where
  parseError := by simp [h, hs]
  stop := by simp [h]
  failure := by simp [h]
  success := by simp [h]
  quiet _ := by simp [hs.stderr_ne_empty rfl]

theorem Session.shows_of_ok {s : Session} {out : String}
    (h : executeText source depth input = .ok (.ok out)) (hreports : s.reports = [])
    (hs : s.options.verbose = false → s.stderr = "") : s.Shows depth source input 0 where
  parseError := by simp [h]
  stop := by simp [h]
  failure := by simp [h]
  success _ _ := hreports
  quiet hquiet := by simp [hs hquiet]

theorem Session.shows_of_stop {s : Session} {why : Stop} (hparse : Program.parse s.source = .ok p)
    (hrun : p.interpret depth (machineOn input) = (.error why, m))
    (hs : s.EndsWith (.ofStop s.options.rich why)) : s.Shows depth s.source input 1 where
  parseError := by simp [executeText_of_stop hparse hrun]
  stop := by simp [executeText_of_stop hparse hrun, hs]
  failure f h := by
    rw [executeText_of_stop hparse hrun] at h
    obtain rfl : why = .failed f := by simpa using h
    exact Notice.text_ofFailure hparse hrun s.options.rich s.options.file
  success := by simp [executeText_of_stop hparse hrun]
  quiet _ := by simp [hs.stderr_ne_empty (Notice.isReport_ofStop _ _)]

/-! ### Files and arguments -/

/-- A file that holds the bytes of a text is that text. -/
theorem decodeFile_toUTF8 (source : String) :
    decodeFile (some source.toUTF8.data.toList) = some source := by
  have hbytes : source.toUTF8.data.toList.toByteArray = source.toUTF8 := by
    apply ByteArray.ext
    simp
  rw [decodeFile, Option.bind_some, hbytes]
  exact dif_pos source.isValidUTF8

namespace Reading

variable {r r' : Reading} {args : List String}

theorem takeAll_of_takeArg {arg : String} (h : r.takeArg arg = .ok r') (hne : arg ≠ "--") :
    takeAll (arg :: args) r = takeAll args r' := by
  rw [takeAll, if_neg hne, h]
  rfl

/-- A flag that was not given yet is noted. -/
theorem takeArg_verbose (h : r.verbose = false) :
    r.takeArg "--verbose" = .ok { r with verbose := true } := by
  change r.takeLong "verbose" = _
  rw [takeLong, if_pos rfl, takeVerbose, h]
  rfl

theorem takeArg_rich (h : r.rich = false) : r.takeArg "--rich" = .ok { r with rich := true } := by
  change r.takeLong "rich" = _
  rw [takeLong, if_neg (by decide), if_pos rfl, takeRich, h]
  rfl

/-- After two dashes any text that is not empty names the file. -/
theorem takeAll_file {file : String} (hr : r.file = none) (h : file ≠ "") :
    takeAll ["--", file] r = .ok { r with file := some file } := by
  have htake : r.takeFile file = .ok { r with file := some file } := by
    simp [takeFile, hr, h]
  rw [takeAll, if_pos rfl, List.foldlM_cons, htake]
  rfl

/-- Every reading that names a file is that of some arguments: the flags that are set, and then the
file. -/
theorem exists_takeAll {file : String} (h : file ≠ "") (verbose rich : Bool) :
    ∃ args, takeAll args {} = .ok ⟨some file, verbose, rich⟩ := by
  have hverbose : ∀ args, takeAll ("--verbose" :: args) {} = takeAll args { verbose := true } :=
    fun _ => takeAll_of_takeArg (takeArg_verbose rfl) (by decide)
  have hrich : ∀ r args, r.rich = false →
      takeAll ("--rich" :: args) r = takeAll args { r with rich := true } :=
    fun _ _ hr => takeAll_of_takeArg (takeArg_rich hr) (by decide)
  cases verbose with
  | false =>
    cases rich with
    | false => exact ⟨_, takeAll_file rfl h⟩
    | true => exact ⟨_, (hrich _ _ rfl).trans (takeAll_file rfl h)⟩
  | true =>
    cases rich with
    | false => exact ⟨_, (hverbose _).trans (takeAll_file rfl h)⟩
    | true => exact ⟨_, (hverbose _).trans ((hrich _ _ rfl).trans (takeAll_file rfl h))⟩

end Reading

/-- Every way of running a file can be asked for. -/
theorem exists_request (o : Options) (h : o.file ≠ "") : ∃ args, request args = .run o := by
  obtain ⟨args, hargs⟩ := Reading.exists_takeAll h o.verbose o.rich
  refine ⟨args, ?_⟩
  rw [request, hargs]
  rfl

/-! ### The agreement -/

/-- Where the session is known, so is what the command does. -/
theorem run_of_session {t : Timing} {o : Options} {exit : Nat} {s : Session}
    (hs : sessionOn depth t o source input.toUTF8.data.toList = (exit, s))
    (read : String → Option (List UInt8)) (args : List String) (hargs : request args = .run o)
    (hread : read o.file = some source.toUTF8.data.toList) :
    run depth t read args input.toUTF8.data.toList =
      .ended exit s.console.sink.written s.stderr := by
  simp only [run, hargs, hread, decodeFile_toUTF8, hs, conclude]

/-- **The command and the library agree** on every source and every input.  The exit code, the output
and the input that is left unread are the same for all flags, and they are what the library says; what
is shown on the error stream is the one error that the library gives. -/
theorem drivers_agree (depth : Nat) (source input : String) :
    ∃ exit stdout unread, Agrees depth source input exit stdout unread ∧
      ∀ (o : Options) (t : Timing), (o.file ≠ "" → ∃ args, request args = .run o) ∧
        ∃ s, sessionOn depth t o source input.toUTF8.data.toList = (exit, s) ∧
          s.options = o ∧ s.console.input = unread ∧ s.Shows depth source input exit ∧
          ∀ read args, request args = .run o → read o.file = some source.toUTF8.data.toList →
            run depth t read args input.toUTF8.data.toList = .ended exit stdout s.stderr := by
  -- The exit code and the streams are settled before the flags are known.
  cases hparse : Program.parse source with
  | error e =>
    have hgives : executeText source depth input = .error e := executeText_of_parseError hparse
    refine ⟨1, #[], _, agrees_of_parseError hgives, fun o t => ⟨exists_request o, ?_⟩⟩
    have hs := sessionOn_of_parseError o t depth input hparse
    refine ⟨_, hs, rfl, rfl, Session.shows_of_parseError hgives ?_, run_of_session hs⟩
    exact .of_notices rfl (List.prefix_append _ _) rfl
  | ok p =>
    rcases hrun : p.interpret depth (machineOn input) with ⟨result, m⟩
    cases result with
    | ok v =>
      obtain ⟨out, hgives, hout⟩ := executeText_of_ok hparse hrun
      refine ⟨0, _, m.console.input, agrees_of_ok hgives, fun o t => ⟨exists_request o, ?_⟩⟩
      have hs := sessionOn_of_ok o t hparse hrun
      refine ⟨_, hs, rfl, rfl, Session.shows_of_ok hgives ?_ fun hquiet => ?_, ?_⟩
      · exact filter_isReport_of_prefix (List.prefix_refl _)
      · rw [Session.stderr, notices_eq_nil_of_quiet t hquiet]
        rfl
      · rw [← hout]
        exact run_of_session hs
    | error why =>
      refine ⟨1, _, _, agrees_of_stop hparse hrun, fun o t => ⟨exists_request o, ?_⟩⟩
      obtain ⟨hasErrors, hs⟩ := sessionOn_of_stop o t hparse hrun
      refine ⟨_, hs, rfl, rfl, Session.shows_of_stop hparse hrun ?_, run_of_session hs⟩
      exact .of_notices (Notice.isReport_ofStop _ _) (List.prefix_refl _) rfl

end Command

end Offside
