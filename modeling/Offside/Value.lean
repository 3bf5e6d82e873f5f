import Offside.Text.Quoted

/-!
# Values

The values of the language: the empty value, unbounded integers, strings and booleans.  Booleans
count as the integers 0 and 1 wherever a number is wanted.
-/

namespace Offside

/-- A value. -/
inductive Value where
  | empty
  | int (i : Int)
  | str (s : String)
  | bool (b : Bool)
  deriving DecidableEq, Repr, Inhabited

namespace Value

/-- Whether the value counts as true: all do but zero, the empty string, `false` and the empty
value. -/
def truth : Value → Bool
  | empty => false
  | int i => i ≠ 0
  | str s => s ≠ ""
  | bool b => b

/-- The kind of the value, as named in failures. -/
def kind : Value → String
  | empty => "NoneType"
  | int _ => "int"
  | str _ => "str"
  | bool _ => "bool"

/-- The number that the value counts as. -/
def asInt? : Value → Option Int
  | int i => some i
  | bool b => some (if b then 1 else 0)
  | empty | str _ => none

/-- The value as it is printed. -/
def display : Value → String
  | empty => "None"
  | int i => i.repr
  | str s => s
  | bool true => "True"
  | bool false => "False"

/-- The value as it is shown in a log, where strings are quoted. -/
def inspect : Value → String
  | str s => Text.quote s
  | v => v.display

end Value

end Offside
