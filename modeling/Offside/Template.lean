import Offside.Text.Alphabetic
import Offside.Text.Number
import Offside.Failure
import Offside.Value

/-!
# Format strings

A template is a text with placeholders, each a name between braces.  A brace that is meant as text is
written twice.  Filling a template replaces each placeholder by the text that is looked up under its
name; what has been put in is never looked at again.
-/

namespace Offside.Template

/-- What can be wrong with a template. -/
inductive Problem where
  /-- A closing brace that is neither doubled nor the end of a placeholder. -/
  | singleClose
  /-- A placeholder that is not closed before the next brace opens or the text ends. -/
  | unclosed
  /-- A placeholder without a name. -/
  | emptyKey
  /-- A placeholder whose text is not a name. -/
  | badKey (key : String)
  /-- A placeholder whose name nothing is known under. -/
  | unbound (key : String)
  deriving DecidableEq, Repr, Inhabited

namespace Problem

/-- The problem as a cause of failure, with the template as it is written in the source. -/
def toCause (literal : String) : Problem → Cause
  | singleClose => .formatSyntax "single '\x7d'" literal
  | unclosed => .formatSyntax "unclosed '\x7b'" literal
  | emptyKey => .formatSyntax "empty placeholder" literal
  | badKey key => .formatSyntax ("invalid placeholder '\x7b" ++ key ++ "\x7d'") literal
  | unbound key => .formatKey key literal

end Problem

/-- A character that may start the name in a placeholder. -/
def isKeyStart (c : Char) : Bool :=
  c == '_' || Text.isAlphabetic c

/-- A character that may go on the name in a placeholder. -/
def isKeyInner (c : Char) : Bool :=
  c == '_' || Text.isAlphabetic c || Text.isNumeric c

/-- Is the text a name as placeholders spell it? -/
def isKey : List Char → Bool
  | [] => false
  | c :: cs => isKeyStart c && cs.all isKeyInner

variable (lookup : String → Option String)

/-- The text to put in for a placeholder. -/
def resolve (key : List Char) : Except Problem (List Char) :=
  if key = [] then .error .emptyKey
  else if isKey key then
    match lookup (String.ofList key) with
    | some text => .ok text.toList
    | none => .error (.unbound (String.ofList key))
  else .error (.badKey (String.ofList key))

/-- Fills a template.  With `some key`, the characters of `key` have been read since a brace opened,
the last one first. -/
def fillFrom : Option (List Char) → List Char → Except Problem (List Char)
  | none, [] => .ok []
  | some _, [] => .error .unclosed
  | none, '\x7b' :: '\x7b' :: cs => return '\x7b' :: (← fillFrom none cs)
  | none, '\x7d' :: '\x7d' :: cs => return '\x7d' :: (← fillFrom none cs)
  | none, c :: cs =>
    if c = '\x7d' then .error .singleClose
    else if c = '\x7b' then fillFrom (some []) cs
    else do return c :: (← fillFrom none cs)
  | some key, c :: cs =>
    if c = '\x7d' then do
      let text ← resolve lookup key.reverse
      return text ++ (← fillFrom none cs)
    else if c = '\x7b' then .error .unclosed
    else fillFrom (some (c :: key)) cs

/-- **Fills a template**, or says what is wrong at the first place that cannot be filled. -/
def fill (content : String) : Except Problem String :=
  (fillFrom lookup none content.toList).map String.ofList

/-- The values of names, as they are displayed. -/
def shown (lookup : String → Option Value) (key : String) : Option String :=
  (lookup key).map Value.display

/-- **Fills a template with the values of names.**  A problem is reported with the literal in which
the template stands. -/
def substitute (lookup : String → Option Value) (content literal : String) : Except Cause String :=
  (fill (shown lookup) content).mapError (Problem.toCause literal)

end Offside.Template
