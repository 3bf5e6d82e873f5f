import Offside.Reading
import Offside.Run.Eval
import Offside.Text.Utf8

/-!
# Runs of programs

A program is loaded, its function `main` is called without arguments, and the output is flushed.
Flushing is done however the program ended, unless it did not load, and trouble with it is what is
reported in the end.
-/

namespace Offside

namespace Globals

/-- Calls a function of a loaded program, predefined or not. -/
def call (g : Globals) (depth : Nat) (f : Function) (args : List Value) (m : Machine) : Answer :=
  f.apply (invoke g depth) args m

/-- Calls `main` without arguments. -/
def callMain (g : Globals) (depth : Nat) (m : Machine) : Answer :=
  match g.get? "main" with
  | some (.function f) => g.call depth f [] m
  | some (.value _) => (.error (.failed ⟨.mainNotAFunction, none⟩), m)
  | none => (.error (.failed ⟨.noMain, none⟩), m)

end Globals

/-- Flushes the output after a run.  A run that was cut off has nothing to report but that. -/
def Answer.flush : Answer → Answer
  | (.error .tooDeep, m) => (.error .tooDeep, m)
  | (.error (.invalidInteger text), m) => (.error (.invalidInteger text), m)
  | (result, m) =>
    match m.console.flush with
    | .ok () => (result, m)
    | .error cause => (.error (.failed ⟨cause, none⟩), m)

namespace Program

/-- **Runs a program**, with calls nested at most `depth` deep. -/
def interpret (p : Program) (depth : Nat) (m : Machine) : Answer :=
  match Globals.extend {} p.funs with
  | (g, offence) =>
    let m := g.funs.foldl (fun m f => m.record (.defining f.name.name f.arity)) m
    match offence with
    | some failure => (.error (.failed failure), m)
    | none => (g.callMain depth m).flush

/-- The output of a program that is run on an input without bounds on its output. -/
def execute (p : Program) (depth : Nat) (input : List UInt8) : Except Stop (Array UInt8) :=
  match p.interpret depth { console := { input } } with
  | (.ok _, m) => .ok m.console.sink.written
  | (.error why, _) => .error why

end Program

/-- What can come of a source: it does not parse, or its run ends. -/
def executeSource (source : String) (depth : Nat) (input : List UInt8) :
    Except ParseError (Except Stop (Array UInt8)) :=
  (Program.parse source).map fun p => p.execute depth input

/-- What can come of a source whose input and output are texts. -/
def executeText (source : String) (depth : Nat) (input : String) :
    Except ParseError (Except Stop String) :=
  (executeSource source depth input.toUTF8.data.toList).map fun result =>
    result.map fun bytes => Text.decodeLossy bytes.toList

end Offside
