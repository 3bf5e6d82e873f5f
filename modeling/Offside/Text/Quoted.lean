import Offside.Text.Mark
import Offside.Text.Printable

/-!
# Quoted texts

A text in double quotes in which every character can be seen: quotes and backslashes are escaped, the
usual controls have short names, and other characters that do not show are given by code point.
-/

namespace Offside.Text

/-- A code point in hexadecimal between braces. -/
def codePoint (c : Char) : List Char :=
  ['\\', 'u', '\x7b'] ++ Nat.toDigits 16 c.toNat ++ ['\x7d']

/-- The quoted form of one character. -/
def quoteChar (c : Char) : List Char :=
  match c with
  | '\x00' => ['\\', '0']
  | '\t' => ['\\', 't']
  | '\n' => ['\\', 'n']
  | '\r' => ['\\', 'r']
  | '"' => ['\\', '"']
  | '\\' => ['\\', '\\']
  | c => if isPrintable c && !isExtender c then [c] else codePoint c

/-- The quoted form of a text. -/
def quote (s : String) : String :=
  String.ofList (['"'] ++ s.toList.flatMap quoteChar ++ ['"'])

end Offside.Text
