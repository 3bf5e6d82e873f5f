import Mathlib.Data.Nat.Factorial.Basic
import Offside.Sample
import Offside.Proofs.Comparisons
import Offside.Proofs.InputLines
import Offside.Proofs.Loading
import Offside.Proofs.Templates
import Offside.Proofs.Run.Yields

/-!
# The factorial program

A sample program reads a line and prints the factorial of the number of its characters, which a
function of the program computes by recursion.  It does so for every line, and calls are nested no
deeper than the number asks for.

* one unfolding of the recursion: `Sample.yields_factorial_of_le`, `Sample.yields_factorial_of_lt`;
* **the function computes factorials**: `Sample.returns_factorial`;
* the text that is printed: `Sample.resultLine`, `Sample.eval_template`;
* **the program prints the factorial of the length of the first line**:
  `Sample.factorialOfInput_runs`.
-/

namespace Offside

open List (Forall₂)
open Text (bytes Content)
open Eval

/-! ### Programs -/

/-- A program that loads comes to what its `main` returns, if flushing then succeeds. -/
theorem Program.runs_of_returns {p : Program} {d : Nat} {f : Function} {v : Value}
    {c c' : Console} (hp : p.Loadable) (hmain : Globals.get? ⟨p.funs⟩ "main" = some (.function f))
    (h : Returns (Globals.call ⟨p.funs⟩ d f []) c v c') (hflush : c'.flush = .ok ()) :
    p.Runs c (.ok v) c' := by
  obtain ⟨m, hcall, rfl⟩ := h { console := c } rfl
  have hanswer : p.interpret d { console := c } = (.ok v, m) := by
    rw [Program.interpret_of_loadable hp, Program.registered_console, Globals.callMain, hmain]
    simp only [hcall, Answer.flush, hflush]
  exact Program.runs_ok (d := d) (by rw [hanswer]; rfl) (by rw [hanswer])

/-! ### Predefined functions on numbers -/

namespace Builtin

theorem call_leq (i j : Int) (c : Console) :
    (compare .leq).call [.int i, .int j] c = (.ok (.bool (decide (i ≤ j))), c) := by
  have horder := Value.order?_of_counts (.int i) (.int j)
  exact (says_compare_iff horder).mpr (by simp [Comparison.accepts, Int.compare_eq_gt]) c

theorem call_sub (i j : Int) (c : Console) :
    (arith .sub).call [.int i, .int j] c = (.ok (.int (i - j)), c) := by
  rw [call_arith_eq_iff, Arith.apply_eq_iff (by decide)]
  have hj : Forall₂ Value.Counts [.int j] [j] := .cons (.int j) .nil
  exact ⟨by simpa using Arith.Gives.difference (by simp) (.int i) hj, rfl⟩

theorem call_mul (i j : Int) (c : Console) :
    (arith .mul).call [.int i, .int j] c = (.ok (.int (i * j)), c) := by
  rw [call_arith_eq_iff, Arith.apply_mul_eq_iff]
  have hij : Forall₂ Value.Counts [.int i, .int j] [i, j] := .cons (.int i) (.cons (.int j) .nil)
  exact ⟨by simpa using Arith.MulGives.numbers (by simp) hij, rfl⟩

end Builtin

namespace Sample

/-! ### The function -/

theorem factorial_max_of_le {k : Int} (h : k ≤ 1) : (max k 1).toNat.factorial = 1 := by
  rw [Int.max_eq_right h]
  rfl

theorem factorial_max_of_lt {k : Int} (h : 1 < k) :
    ((max k 1).toNat.factorial : Int) = k * (max (k - 1) 1).toNat.factorial := by
  have hpred : 1 ≤ k - 1 := by omega
  have hnat : k.toNat = (k - 1).toNat + 1 := by omega
  have hcast : (((k - 1).toNat + 1 : Nat) : Int) = k := by omega
  rw [Int.max_eq_left (by omega), Int.max_eq_left hpred, hnat, Nat.factorial_succ, Int.natCast_mul,
    hcast]

section
variable {g : Globals} {invoke : Invoke} {k : Int} {c : Console}

/-- The variables in a call of the function. -/
abbrev factorialLocals (k : Int) : Locals :=
  [("_", .int k), ("n", .int k)]

theorem yields_one {ls : Locals} : (expr g invoke (.ofInt 1)).Yields ls c (.int 1) ls c :=
  yields_number (by decide)

theorem yields_n : (expr g invoke (.var "n")).Yields (factorialLocals k) c (.int k)
    (factorialLocals k) c :=
  yields_name rfl

/-- The condition of the function. -/
theorem yields_test : (expr g invoke (.apply "leq" [.var "n", .ofInt 1])).Yields (factorialLocals k) c
    (.bool (decide (k ≤ 1))) (factorialLocals k) c :=
  yields_builtin rfl (yields_exprs_cons yields_n (yields_exprs_cons yields_one yields_exprs_nil))
    (Builtin.call_leq k 1 c)

/-- A number up to one ends the recursion. -/
theorem yields_factorial_of_le (hk : k ≤ 1) :
    ∃ ls, (body g invoke factorial.body).Yields (factorialLocals k) c (.int 1) ls c := by
  exact ⟨_, yields_single (yields_chosen yields_test (decide_eq_true hk)
    (yields_single (yields_line yields_one)))⟩

/-- Any other number is multiplied with what the function returns on the number before it. -/
theorem yields_factorial_of_lt {v : Int} (hg : g.get? "fact" = some (.function (.user factorial)))
    (hk : 1 < k) (h : Returns (invoke factorial [.int (k - 1)]) c (.int v) c) :
    ∃ ls, (body g invoke factorial.body).Yields (factorialLocals k) c (.int (k * v)) ls c := by
  have hpred : (expr g invoke (.apply "sub" [.var "n", .ofInt 1])).Yields (factorialLocals k) c
      (.int (k - 1)) (factorialLocals k) c :=
    yields_builtin rfl (yields_exprs_cons yields_n (yields_exprs_cons yields_one yields_exprs_nil))
      (Builtin.call_sub k 1 c)
  have hcallee : Scope.callee ⟨g, factorialLocals k⟩ ⟨"fact", .initial⟩ .initial =
      .ok (.user factorial) := by
    rw [Scope.callee, Scope.get?_of_none rfl, hg]
  have hcall : (expr g invoke (.apply "fact" [.apply "sub" [.var "n", .ofInt 1]])).Yields
      (factorialLocals k) c (.int v) (factorialLocals k) c :=
    yields_call hcallee (yields_exprs_cons hpred yields_exprs_nil) (Function.returns_user rfl h)
  have hproduct : (expr g invoke (.apply "mul" [.var "n",
      .apply "fact" [.apply "sub" [.var "n", .ofInt 1]]])).Yields (factorialLocals k) c
      (.int (k * v)) (factorialLocals k) c :=
    yields_builtin rfl (yields_exprs_cons yields_n (yields_exprs_cons hcall yields_exprs_nil))
      (Builtin.call_mul k v c)
  have htest : (Value.bool (decide (k ≤ 1))).truth = false := decide_eq_false (by omega)
  exact ⟨_, yields_single (yields_otherwise yields_test htest
    (yields_single (yields_line hproduct)))⟩

/-- **The function computes factorials.**  Calls are nested once for each number above one. -/
theorem returns_factorial (hg : g.get? "fact" = some (.function (.user factorial))) {d : Nat}
    (hd : k.toNat < d) :
    Returns (Offside.invoke g d factorial [.int k]) c (.int (max k 1).toNat.factorial) c := by
  induction d generalizing k with
  | zero => omega
  | succ d ih =>
    by_cases hk : k ≤ 1
    · obtain ⟨ls, hbody⟩ := yields_factorial_of_le hk
      rw [factorial_max_of_le hk]
      exact returns_invoke hbody
    · rw [Int.not_le] at hk
      have hpred : (k - 1).toNat < d := by omega
      obtain ⟨ls, hbody⟩ := yields_factorial_of_lt hg hk (ih hpred)
      rw [factorial_max_of_lt hk]
      exact returns_invoke hbody

end

/-! ### What is printed -/

/-- The line for a number of characters. -/
def resultLine (n : Nat) : String :=
  n.repr ++ "! = " ++ n.factorial.repr

/-- The template of the program, piece by piece. -/
def resultSegments : List Template.Segment :=
  [.key ⟨['n'], by decide +kernel⟩, .char '!', .char ' ', .char '=', .char ' ',
    .key ⟨['r', 'e', 's'], by decide +kernel⟩]

/-- The template is filled with the values of the two variables. -/
theorem eval_template {s : Scope} {v w : Value} (hv : s.valueOf? "n" = some v)
    (hw : s.valueOf? "res" = some w) :
    StrLit.eval ⟨"\x7bn\x7d! = \x7bres\x7d", .double, false⟩ s =
      .ok (v.display ++ "! = " ++ w.display) := by
  have hwritten : "\x7bn\x7d! = \x7bres\x7d".toList = Template.written resultSegments := by
    decide
  have htext : Template.text? s.valueOf? resultSegments =
      some (v.display ++ "! = " ++ w.display).toList := by
    have hn : s.valueOf? (String.ofList ['n']) = some v := hv
    have hres : s.valueOf? (String.ofList ['r', 'e', 's']) = some w := hw
    simp [resultSegments, Template.text?, Template.Segment.text?, hn, hres]
  have hsubstitute := Template.substitute_of_written hwritten htext
  simp only [String.ofList_toList] at hsubstitute
  exact hsubstitute _

/-! ### The program -/

theorem factorial_max_natCast (n : Nat) : (max (n : Int) 1).toNat.factorial = n.factorial := by
  cases n with
  | zero => rfl
  | succ n =>
    rw [Int.max_eq_left (by omega)]
    rfl

/-- The functions of the program. -/
abbrev factorialGlobals : Globals :=
  ⟨factorialOfInput.funs⟩

/-- The main function of the program. -/
abbrev factorialMain : FunDef :=
  mainOf
    [.ofExpr (.set "word" (.apply "input" [])),
     .ofExpr (.set "n" (.apply "length" [.var "word"])),
     .ofExpr (.set "res" (.apply "fact" [.var "n"])),
     print [.template "\x7bn\x7d! = \x7bres\x7d"]]

/-- What `main` does when reading gives a word and the result can be printed. -/
theorem yields_main {d : Nat} {word : String} {c c₁ c' : Console}
    (hinput : Builtin.input.call [] c = (.ok (.str word), c₁))
    (hprint : Builtin.print.call [.str (resultLine word.length)] c₁ =
      (.ok (.str (resultLine word.length)), c')) (hd : word.length < d) :
    ∃ ls, (body factorialGlobals (invoke factorialGlobals d) factorialMain.body).Yields
      [("_", .empty)] c (.str (resultLine word.length)) ls c' := by
  -- Each statement adds a variable, and its value is the last produced one for the next statement.
  have hword : (stmt factorialGlobals (invoke factorialGlobals d)
      (.ofExpr (.set "word" (.apply "input" [])))).Yields [("_", .empty)] c (.str word)
      [("_", .empty), ("word", .str word)] c₁ :=
    yields_line (yields_assign (yields_builtin rfl yields_exprs_nil hinput) rfl)
  have hlength : (stmt factorialGlobals (invoke factorialGlobals d)
      (.ofExpr (.set "n" (.apply "length" [.var "word"])))).Yields
      [("_", .str word), ("word", .str word)] c₁ (.int word.length)
      [("_", .str word), ("word", .str word), ("n", .int word.length)] c₁ :=
    yields_line (yields_assign (yields_builtin rfl
      (yields_exprs_cons (yields_name rfl) yields_exprs_nil) rfl) rfl)
  have hfactorial : Returns (invoke factorialGlobals d factorial [.int word.length]) c₁
      (.int word.length.factorial) c₁ := by
    rw [← factorial_max_natCast]
    exact returns_factorial rfl hd
  have hres : (stmt factorialGlobals (invoke factorialGlobals d)
      (.ofExpr (.set "res" (.apply "fact" [.var "n"])))).Yields
      [("_", .int word.length), ("word", .str word), ("n", .int word.length)] c₁
      (.int word.length.factorial)
      [("_", .int word.length), ("word", .str word), ("n", .int word.length),
        ("res", .int word.length.factorial)] c₁ :=
    yields_line (yields_assign (yields_call rfl
      (yields_exprs_cons (yields_name rfl) yields_exprs_nil)
      (Function.returns_user rfl hfactorial)) rfl)
  have hshown : (stmt factorialGlobals (invoke factorialGlobals d)
      (print [.template "\x7bn\x7d! = \x7bres\x7d"])).Yields
      [("_", .int word.length.factorial), ("word", .str word), ("n", .int word.length),
        ("res", .int word.length.factorial)] c₁ (.str (resultLine word.length)) _ c' :=
    yields_line (yields_builtin rfl
      (yields_exprs_cons (yields_string (eval_template rfl rfl)) yields_exprs_nil) hprint)
  exact ⟨_, yields_next hword (yields_next hlength (yields_next hres (yields_single hshown)))⟩

/-- **The factorial program is correct on every input.**  Whatever the first line of the input, as
long as it is a text, the program prints and returns one line with the number of its characters and
the factorial of this number, and leaves what comes after the first line unread.  Its function returns
the factorial of every number above one, and one for all others, and leaves the console alone. -/
theorem factorialOfInput_runs :
    (∀ (stdin : List UInt8) (out : Array UInt8) (line word : String) (lines : List (List UInt8)),
      CutAfter 10 stdin (bytes line :: lines) → Content line.toList word.toList →
      factorialOfInput.Runs ⟨stdin, { written := out }⟩ (.ok (.str (resultLine word.length)))
        ⟨lines.flatten,
          { written := out ++ (resultLine word.length ++ "\n").toUTF8.data }⟩) ∧
    Globals.get? factorialGlobals "fact" = some (.function (.user factorial)) ∧
    ∀ (k : Int) (d : Nat) (m : Machine), k.toNat < d →
      ∃ m', Globals.call factorialGlobals d (.user factorial) [.int k] m =
          (.ok (.int (max k 1).toNat.factorial), m') ∧ m'.console = m.console := by
  refine ⟨fun stdin out line word lines hcut hword => ?_, rfl, fun k d m hd => ?_⟩
  · have hinput := Builtin.call_input_of_cut hcut (.text hword) { written := out }
    have hprint := Builtin.call_print (resultLine word.length) lines.flatten out
    obtain ⟨ls, hbody⟩ := yields_main hinput hprint (Nat.lt_succ_self word.length)
    have hload : Globals.load factorialOfInput = .ok factorialGlobals := rfl
    exact Program.runs_of_returns (Globals.load_eq_ok_iff.mp hload).1 rfl
      (Function.returns_user (f := factorialMain) rfl (returns_invoke hbody)) rfl
  · exact Function.returns_user rfl (returns_factorial rfl hd) m rfl

/-- A line that ends with a carriage return and a line feed, with a character of two bytes and input
after it, and the function on both sides of one. -/
theorem factorialOfInput_runs_crlf :
    factorialOfInput.Runs { input := bytes "hé\r\nrest" } (.ok (.str "2! = 2"))
      ⟨bytes "rest", { written := "2! = 2\n".toUTF8.data }⟩ ∧
    (∃ m, Globals.call factorialGlobals 1 (.user factorial) [.int (-3)] {} = (.ok (.int 1), m) ∧
      m.console = {}) ∧
    ∃ m, Globals.call factorialGlobals 6 (.user factorial) [.int 5] {} = (.ok (.int 120), m) ∧
      m.console = {} := by
  obtain ⟨hruns, -, hcalls⟩ := factorialOfInput_runs
  refine ⟨?_, hcalls (-3) 1 {} (by decide), hcalls 5 6 {} (by decide)⟩
  have hrest : CutAfter 10 (bytes "rest") [bytes "rest"] := .last (by decide) (by decide)
  have hcut : CutAfter 10 (bytes "hé\r\nrest") [bytes "hé\r\n", bytes "rest"] :=
    CutAfter.line (l := bytes "hé\r") (by decide) hrest
  have hcontent : Content "hé\r\n".toList "hé".toList := by
    simpa using Content.crlf "hé".toList
  exact hruns _ #[] "hé\r\n" "hé" _ hcut hcontent

end Sample

end Offside
