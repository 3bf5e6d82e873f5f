import Offside.Report.Failure
import Offside.Proofs.Numerals
import Offside.Proofs.Places
import Offside.Proofs.Run.Origin

/-!
# Nothing is ever out of bounds

Reading a source, running the program and reporting its failure rest on facts that are established
elsewhere: the grammar produces the trees that are taken as programs and the digits of decimal
literals, the number of arguments is checked before they are used, and spans start and end between
characters of the source.  With these, no step is ever without a result.

* **predefined functions find their arguments**: `Builtin.callAt?`, `Builtin.callAt?_eq`;
* the lines of a source are parts of it: `lines_standAt`;
* **nothing goes wrong** from the source to the report: `PanicFree`, `panicFree`.
-/

namespace Offside

open Text

/-! ### Arguments by their index -/

/-- Applies an arithmetic function the way that takes the first operand off a list of numbers and
then tells the functions apart, if there is a first one and the function is one of those left. -/
def Arith.applyAt? (op : Arith) (args : List Value) : Option (Except Cause Value) :=
  if args.length < 2 then some (.error (.tooFewOperands op.name args.length))
  else if op = .mul then some (product args)
  else
    match args.mapM op.operand with
    | .error cause => some (.error cause)
    | .ok ints =>
      match ints with
      | [] => none
      | first :: rest =>
        match op with
        | .add => some (.ok (.int (total ints)))
        | .sub => some (.ok (.int (first - total rest)))
        | .div => some (quotient first rest)
        | .mul => none

/-- The number of arguments that a predefined function takes, if it is fixed. -/
def Builtin.arity? : Builtin → Option Nat
  | .print | .arith _ => none
  | .input => some 0
  | .length => some 1
  | .eq | .compare _ => some 2

/-- Runs a predefined function on arguments that it takes by their index, if they are there. -/
def Builtin.bodyAt? (b : Builtin) (args : List Value) (c : Console) :
    Option (Except Cause Value × Console) :=
  match b with
  | .print => some (doPrint args c)
  | .input => some (doInput c)
  | .arith op => (op.applyAt? args).map fun result => (result, c)
  | .length => args[0]?.map fun v => (v.length, c)
  | .eq => args[0]?.bind fun x => args[1]?.map fun y => (.ok (.bool (x.equals y)), c)
  | .compare op => args[0]?.bind fun x => args[1]?.map fun y => (op.apply x y, c)

/-- Calls a predefined function: its number of arguments is checked, and then they are taken by their
index. -/
def Builtin.callAt? (b : Builtin) (args : List Value) (c : Console) :
    Option (Except Cause Value × Console) :=
  match b.arity? with
  | some n =>
    if args.length ≠ n then some (.error (.arity b.name n args.length), c) else b.bodyAt? args c
  | none => b.bodyAt? args c

theorem Arith.foldl_add (xs : List Int) (a b : Int) :
    xs.foldl (· + ·) (a + b) = a + xs.foldl (· + ·) b := by
  induction xs generalizing b with
  | nil => rfl
  | cons x xs ih => rw [List.foldl_cons, List.foldl_cons, Int.add_assoc, ih]

theorem Arith.total_cons (x : Int) (xs : List Int) : total (x :: xs) = x + total xs := by
  have h := Arith.foldl_add xs x 0
  unfold total
  rw [List.foldl_cons, Int.zero_add, ← h, Int.add_zero]

theorem Arith.applyAt?_eq (op : Arith) (args : List Value) :
    op.applyAt? args = some (op.apply args) := by
  unfold Arith.applyAt?
  match args with
  | [] => rfl
  | [v] => rfl
  | first :: second :: others =>
    rw [if_neg (by simp)]
    by_cases hmul : op = .mul
    · subst hmul
      rfl
    · rw [if_neg hmul, List.mapM_cons]
      unfold Arith.apply
      cases hx : op.operand first with
      | error cause =>
        cases op with
        | mul => exact absurd rfl hmul
        | add | sub | div =>
          simp only [hx]
          rfl
      | ok x =>
        cases hxs : (second :: others).mapM op.operand with
        | error cause =>
          cases op with
          | mul => exact absurd rfl hmul
          | add | sub | div =>
            simp only [hx, hxs]
            rfl
        | ok xs =>
          cases op with
          | mul => exact absurd rfl hmul
          | add =>
            simp only [hx, hxs]
            change some (Except.ok (Value.int (total (x :: xs)))) = _
            rw [Arith.total_cons]
            rfl
          | sub | div =>
            simp only [hx, hxs]
            rfl

/-- **Predefined functions find their arguments:** taking them by their index never fails, and gives
what `Builtin.call` gives. -/
theorem Builtin.callAt?_eq (b : Builtin) (args : List Value) (c : Console) :
    b.callAt? args c = some (b.call args c) := by
  unfold Builtin.callAt? Builtin.bodyAt?
  cases b with
  | print => rfl
  | arith op =>
    simp only [Builtin.arity?, Arith.applyAt?_eq]
    rfl
  | input =>
    match args with
    | [] => rfl
    | _ :: _ => rfl
  | length =>
    match args with
    | [] => rfl
    | [v] => rfl
    | _ :: _ :: _ => rfl
  | eq =>
    match args with
    | [] => rfl
    | [x] => rfl
    | [x, y] => rfl
    | _ :: _ :: _ :: _ => rfl
  | compare op =>
    match args with
    | [] => rfl
    | [x] => rfl
    | [x, y] => rfl
    | _ :: _ :: _ :: _ => rfl

/-! ### Lines -/

theorem numberLines_standAt {cs : List Char} {pieces : List (List Char)} {number pos : Nat}
    (h : StandsAt cs pos pieces.flatten) :
    ∀ l ∈ numberLines number pos pieces, StandsAt cs l.start l.chars := by
  induction pieces generalizing number pos with
  | nil => simp [numberLines]
  | cons piece pieces ih =>
    rw [List.flatten_cons] at h
    rintro l (_ | ⟨_, hl⟩)
    · exact h.left
    · exact ih h.right l hl

/-- The lines of a source are parts of it. -/
theorem lines_standAt (cs : List Char) : ∀ l ∈ lines cs, StandsAt cs l.start l.chars := by
  apply numberLines_standAt
  rw [flatten_cutLines]
  exact ⟨[], [], by simp, rfl⟩

/-! ### From the source to the report -/

theorem slice?_bounds {cs t : List Char} {start stop : Nat} (h : slice? cs start stop = some t) :
    start ≤ stop ∧ stop ≤ byteSize cs := by
  obtain ⟨hs, rfl⟩ := slice?_eq_some_iff.mp h
  exact ⟨Nat.le_add_right .., hs.le_byteSize⟩

/-- The number of quotes at each end of a string literal. -/
def StrLit.width (lit : StrLit) : Nat :=
  if lit.long then 3 else 1

/-- The delimiters can be cut off the text of a literal. -/
theorem StrLit.slice?_sourceForm (lit : StrLit) :
    slice? lit.sourceForm.toList lit.width (byteSize lit.sourceForm.toList - lit.width) =
      some lit.content.toList := by
  have hsize : byteSize lit.delimiter.toList = lit.width := by
    unfold StrLit.delimiter StrLit.width
    cases lit.long <;> cases lit.quote <;> decide
  have hform : lit.sourceForm.toList =
      lit.delimiter.toList ++ (lit.content.toList ++ lit.delimiter.toList) := by
    simp [StrLit.sourceForm]
  rw [slice?_eq_some_iff, hform]
  refine ⟨⟨_, _, rfl, hsize⟩, ?_⟩
  simp only [byteSize_append]
  omega

/-- **Nothing goes wrong** with a source: no step from reading it to reporting the failure of its
program is without a result. -/
structure PanicFree (source : String) : Prop where
  /-- The tree of a source is that of a program. -/
  lowering : Program.parse source ≠ .error .malformedTree
  /-- Spans do not end before they start, and their offsets fit into 32 bits. -/
  spans : ∀ p, Program.parse source = .ok p → ∀ s ∈ p.span :: p.items.map Item.span,
    s.start ≤ s.stop ∧ s.stop < UInt32.size
  /-- The delimiters can be cut off a string literal. -/
  strings : ∀ p, Program.parse source = .ok p → ∀ lit s, .expr (.string lit s) ∈ p.items →
    ∃ t, slice? source.toList s.start s.stop = some t ∧
      slice? t lit.width (byteSize t - lit.width) = some lit.content.toList
  /-- Decimal literals are numbers, whatever a run leads to. -/
  integers : ∀ p, Program.parse source = .ok p → ∀ depth m text,
    (p.interpret depth m).1 ≠ .error (.invalidInteger text)
  /-- Predefined functions find their arguments. -/
  arguments : ∀ (b : Builtin) (args : List Value) (c : Console),
    b.callAt? args c = some (b.call args c)
  /-- The lines that a report shows are parts of the source. -/
  lines : ∀ l ∈ lines source.toList,
    slice? source.toList l.start (l.start + byteSize l.chars) = some l.chars
  /-- The plain report of a failure can be drawn. -/
  report : ∀ p, Program.parse source = .ok p → ∀ (name : String) (depth : Nat) (m : Machine) failure,
    (p.interpret depth m).failure? = some failure →
      ∃ text, Report.classicOf ⟨name, source⟩ failure = some text

/-- A number literal that is not a number is in no parsed program. -/
theorem Program.interpret_ne_invalidInteger {source : String} {p : Program}
    (hparse : Program.parse source = .ok p) (depth : Nat) (m : Machine) (text : String) :
    (p.interpret depth m).1 ≠ .error (.invalidInteger text) := by
  intro h
  have hrun : p.interpret depth m = (.error (.invalidInteger text), (p.interpret depth m).2) := by
    rw [← h]
  rcases Program.stop_origin hrun trivial with ⟨x, -, hwhy⟩ | ⟨g, q, -, hraises, hcode⟩
  · cases hwhy
  · cases hraises with
    | integer htext =>
      obtain ⟨pos, t, -, hwritten⟩ :=
        Program.items_standIn hparse _ (hcode _ (Expr.mem_items_self _))
      cases hwritten with
      | number hspells =>
        obtain ⟨n, hn, -⟩ := DecText.literal?_eq hspells
        rw [hn] at htext
        cases htext

/-- A failure of a parsed program can be reported. -/
theorem Program.exists_report {source : String} {p : Program}
    (hparse : Program.parse source = .ok p) (name : String) {depth : Nat} {m : Machine}
    {failure : Failure} (h : (p.interpret depth m).failure? = some failure) :
    ∃ text, Report.classicOf ⟨name, source⟩ failure = some text := by
  obtain ⟨cause, span⟩ := failure
  unfold Report.classicOf Report.classic
  cases span with
  | none => exact ⟨_, rfl⟩
  | some s =>
    obtain ⟨i, hi, rfl⟩ := Program.failure_item h
    obtain ⟨t, ht⟩ := (Program.items_standIn hparse i hi).slice
    simp only [ht]
    split
    · exact ⟨_, rfl⟩
    · exact ⟨_, rfl⟩

/-- **Nothing ever goes wrong** with a source of less than four gigabytes: it is a program or has a
syntax error, and a program runs to an end that can be reported. -/
theorem panicFree {source : String} (h : byteSize source.toList < UInt32.size) :
    PanicFree source where
  lowering := Program.parse_ne_malformedTree source
  spans p hparse s hs := by
    rcases List.mem_cons.mp hs with rfl | hs
    · obtain ⟨_, _, _, -, -, -, -, -, hspan⟩ := Program.written_of_parse hparse
      rw [hspan]
      exact ⟨Nat.le_add_right .., by simpa [Span.over] using h⟩
    · obtain ⟨i, hi, rfl⟩ := List.mem_map.mp hs
      obtain ⟨t, ht⟩ := (Program.items_standIn hparse i hi).slice
      have hbounds := slice?_bounds ht
      exact ⟨hbounds.1, by omega⟩
  strings p hparse lit s hlit := by
    obtain ⟨pos, t, hs, hwritten⟩ := Program.items_standIn hparse _ hlit
    cases hwritten with
    | string _ => exact ⟨_, hs.slice, lit.slice?_sourceForm⟩
  integers p hparse := Program.interpret_ne_invalidInteger hparse
  arguments := Builtin.callAt?_eq
  lines l hl := (lines_standAt _ l hl).slice
  report p hparse name _ _ _ hfailure := Program.exists_report hparse name hfailure

/-- A call of an undefined function, with a character of two bytes in a string on two lines. -/
theorem panicFree_call : PanicFree "def main():\n\tf('''é\n''')\n" :=
  panicFree (by decide +kernel)

end Offside
