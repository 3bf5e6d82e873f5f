import Offside.Value
import Offside.Console

/-!
# Predefined functions

The twelve functions that every program can call: printing and reading, arithmetic on any number of
operands, the length of a string, and comparisons.
-/

namespace Offside

/-- The arithmetic functions. -/
inductive Arith where
  | add
  | sub
  | mul
  | div
  deriving DecidableEq, Repr, Inhabited

/-- The comparisons that need an order. -/
inductive Comparison where
  | lt
  | leq
  | gt
  | geq
  deriving DecidableEq, Repr, Inhabited

/-- A predefined function. -/
inductive Builtin where
  | print
  | input
  | arith (op : Arith)
  | length
  | eq
  | compare (op : Comparison)
  deriving DecidableEq, Repr, Inhabited

/-! ### Arithmetic -/

namespace Arith

/-- The name under which a function can be called. -/
def name : Arith → String
  | add => "add"
  | sub => "sub"
  | mul => "mul"
  | div => "div"

/-- The number that an operand stands for. -/
def operand (op : Arith) (v : Value) : Except Cause Int :=
  match v.asInt? with
  | some i => .ok i
  | none => .error (.arithmetic op.name v.kind)

/-- A text many times over. -/
def repeated (s : String) (n : Nat) : String :=
  if s = "" then "" else String.join (List.replicate n s)

/-- The least count that a machine word does not hold. -/
def countBound : Int := 18446744073709551616

/-- A string times a number.  A negative count counts as zero; one that no machine word holds is
refused. -/
def replicate (s : String) (count : Int) : Except Cause Value :=
  if count < 0 then .ok (.str "")
  else if count < countBound then .ok (.str (repeated s count.toNat))
  else .error (.arithmetic mul.name "int")

/-- One step of a product.  A string on either side is repeated. -/
def times (acc v : Value) : Except Cause Value :=
  match acc, v with
  | .str s, n | n, .str s =>
    match n.asInt? with
    | some count => replicate s count
    | none => .error (.arithmetic mul.name n.kind)
  | a, b => do
    let x ← mul.operand a
    let y ← mul.operand b
    return .int (x * y)

/-- The product of all values from the left, starting with one. -/
def product (args : List Value) : Except Cause Value :=
  args.foldlM times (.int 1)

/-- The sum of numbers. -/
def total (xs : List Int) : Int :=
  xs.foldl (· + ·) 0

/-- Division rounded towards the lesser integer: the quotient rounded towards zero, less one where
there is a remainder whose sign is not that of the divisor. -/
def floorDiv (lhs rhs : Int) : Int :=
  let quotient := lhs.tdiv rhs
  let remainder := lhs.tmod rhs
  if decide (remainder ≠ 0) && (decide (remainder < 0) != decide (rhs < 0)) then quotient - 1
  else quotient

/-- The first number divided by the product of the others, rounded towards the lesser integer. -/
def quotient (first : Int) (rest : List Int) : Except Cause Value :=
  let divisor := rest.foldl (· * ·) 1
  if divisor = 0 then .error .divisionByZero else .ok (.int (floorDiv first divisor))

/-- Applies an arithmetic function to at least two operands. -/
def apply (op : Arith) (args : List Value) : Except Cause Value :=
  match args with
  | first :: second :: others =>
    match op with
    | mul => product args
    | op => do
      let x ← op.operand first
      let xs ← (second :: others).mapM op.operand
      match op with
      | div => quotient x xs
      | sub => return .int (x - total xs)
      | _ => return .int (x + total xs)
  | _ => .error (.tooFewOperands op.name args.length)

end Arith

/-! ### Length and comparisons -/

/-- The number of characters of a string. -/
def Value.length : Value → Except Cause Value
  | .str s => .ok (.int s.length)
  | other => .error (.noLength other.kind)

/-- Equality of any two values, where booleans equal the numbers that they count as. -/
def Value.equals (a b : Value) : Bool :=
  match a.asInt?, b.asInt? with
  | some i, some j => i = j
  | _, _ => a = b

/-- The order of two strings or of two numbers; other values have none. -/
def Value.order? (a b : Value) : Option Ordering :=
  match a, b with
  | .str s, .str t => some (Ord.compare s t)
  | a, b =>
    match a.asInt?, b.asInt? with
    | some i, some j => some (Ord.compare i j)
    | _, _ => none

namespace Comparison

/-- The name under which a function can be called. -/
def name : Comparison → String
  | lt => "lt"
  | leq => "leq"
  | gt => "gt"
  | geq => "geq"

/-- Whether an order is the one that a comparison asks for. -/
def accepts : Comparison → Ordering → Bool
  | lt, o => o = .lt
  | leq, o => o ≠ .gt
  | gt, o => o = .gt
  | geq, o => o ≠ .lt

/-- Applies a comparison to two values. -/
def apply (op : Comparison) (x y : Value) : Except Cause Value :=
  match x.order? y with
  | some o => .ok (.bool (op.accepts o))
  | none => .error (.unsupportedComparison op.name x.kind y.kind)

end Comparison

namespace Builtin

/-- All predefined functions. -/
def all : List Builtin :=
  [print, input, arith .add, arith .sub, arith .mul, arith .div, length, eq, compare .lt,
   compare .leq, compare .gt, compare .geq]

/-- The name under which a function can be called. -/
def name : Builtin → String
  | print => "print"
  | input => "input"
  | arith op => op.name
  | length => "length"
  | eq => "eq"
  | compare op => op.name

/-- The function of that name. -/
def named? (name : String) : Option Builtin :=
  all.find? (·.name == name)

/-! ### Calls -/

/-- The line that is printed for some values. -/
def printed (args : List Value) : String :=
  String.intercalate " " (args.map Value.display) ++ "\n"

/-- Prints values on one line and gives back the first of them. -/
def doPrint (args : List Value) (c : Console) : Except Cause Value × Console :=
  let (result, c) := c.write (printed args)
  (result.map fun _ => args.headD .empty, c)

/-- Reads a line. -/
def doInput (c : Console) : Except Cause Value × Console :=
  let (result, c) := c.readLine
  (result.map Value.str, c)

/-- **Calls a predefined function.**  A wrong number of arguments is found before anything else. -/
def call (b : Builtin) (args : List Value) (c : Console) : Except Cause Value × Console :=
  match b, args with
  | print, args => doPrint args c
  | arith op, args => (op.apply args, c)
  | input, [] => doInput c
  | input, args => (.error (.arity b.name 0 args.length), c)
  | length, [v] => (v.length, c)
  | length, args => (.error (.arity b.name 1 args.length), c)
  | eq, [x, y] => (.ok (.bool (x.equals y)), c)
  | compare op, [x, y] => (op.apply x y, c)
  | eq, args | compare _, args => (.error (.arity b.name 2 args.length), c)

end Builtin

/-- The predefined values. -/
def predefined? (name : String) : Option Value :=
  if name = "true" then some (.bool true)
  else if name = "false" then some (.bool false)
  else if name = "_" then some .empty
  else none

/-- Is the name one that every program knows? -/
def isReserved (name : String) : Bool :=
  (Builtin.named? name).isSome || (predefined? name).isSome

end Offside
