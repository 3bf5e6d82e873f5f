import Offside.Command

/-!
# The program

Reads the arguments, the file and the input, and leaves everything else to the command.
-/

namespace Offside.Main

/-- How deep calls may be nested before the run is given up. -/
def callDepth : Nat := 1000000

/-- The bytes of a file, if it can be read. -/
def readFile? (name : String) : IO (Option (List UInt8)) := do
  try
    return some (← IO.FS.readBinFile name).data.toList
  catch _ =>
    return none

/-- All bytes of the standard input. -/
partial def readInput (stream : IO.FS.Stream) (acc : ByteArray) : IO ByteArray := do
  let chunk ← stream.read 65536
  if chunk.isEmpty then return acc else readInput stream (acc ++ chunk)

/-- Runs a step and tells how long it took. -/
def timed {α : Type} (step : Unit → α) : IO (α × String) := do
  let start ← IO.monoNanosNow
  let a ← IO.lazyPure step
  let stop ← IO.monoNanosNow
  return (a, ((stop - start) / 1000).repr ++ "µs")

/-- Reads and runs a source, and takes the time of both. -/
def timedOutcome (text : String) : IO (Command.Timing × Except ParseError Answer) := do
  let (parsed, parsing) ← timed fun _ => Program.parse text
  match parsed with
  | .error e => return (⟨parsing, ""⟩, .error e)
  | .ok p =>
    let input ← readInput (← IO.getStdin) .empty
    let (answer, running) ← timed fun _ =>
      p.interpret callDepth { console := { input := input.data.toList } }
    return (⟨parsing, running⟩, .ok answer)

/-- The reply of the command to its arguments. -/
def reply (args : List String) : IO Command.Reply := do
  match Command.request args with
  | .run o =>
    match Command.decodeFile (← readFile? o.file) with
    | none => return Command.notFound o
    | some text =>
      let (timing, outcome) ← timedOutcome text
      return Command.conclude (Command.session o timing text {} outcome)
  | _ => return Command.run callDepth ⟨"", ""⟩ (fun _ => none) args []

end Offside.Main

open Offside in
/-- The command. -/
def main (args : List String) : IO UInt32 := do
  match ← Main.reply args with
  | .misuse =>
    (← IO.getStderr).putStr "Usage: asdf [OPTIONS] <FILE>\n"
    return 2
  | .ended exit stdout stderr =>
    (← IO.getStdout).write ⟨stdout⟩
    (← IO.getStdout).flush
    (← IO.getStderr).putStr stderr
    return exit.toUInt32
