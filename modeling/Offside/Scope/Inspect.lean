import Offside.Scope

/-!
# Showing scopes

What a scope holds, line by line: the names of the globals, and the variables with their values.
-/

namespace Offside

/-- How a meaning is shown. -/
def Binding.inspect : Binding → String
  | .value v => "Val(" ++ v.inspect ++ ")"
  | .function f => "Fun(" ++ f.inspect ++ ")"

/-- The lines that show a scope. -/
def Scope.inspect (s : Scope) : List String :=
  ["Env \x7b", "globals: \x7b"] ++
    s.globals.names.map (fun n => Text.quote n ++ ",") ++
    ["\x7d,", "locals: \x7b"] ++
    s.locals.map (fun (n, v) => Text.quote n ++ ": " ++ v.inspect ++ ",") ++
    ["\x7d,", "\x7d"]

end Offside
