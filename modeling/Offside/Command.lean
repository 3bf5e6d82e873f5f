import Offside.Run
import Offside.Report.Failure

/-!
# The command line

One argument names the file of the program to run; flags ask for more output, for framed reports, or
only for help.  Arguments are read from left to right, and the first one that settles what to do does
so: a request for help wins over whatever follows it, and so does a mistake.
-/

namespace Offside.Command

/-- How a program is to be run. -/
structure Options where
  /-- The file of the program, as it was given. -/
  file : String
  /-- Report the steps and their durations. -/
  verbose : Bool := false
  /-- Report failures in a frame. -/
  rich : Bool := false
  deriving DecidableEq, Repr, Inhabited

/-- What the arguments ask for. -/
inductive Request where
  | help
  | version
  /-- The arguments make no sense. -/
  | misuse
  | run (options : Options)
  deriving DecidableEq, Repr, Inhabited

/-! ### Arguments -/

/-- What has been read of the arguments. -/
structure Reading where
  file : Option String := none
  verbose : Bool := false
  rich : Bool := false
  deriving DecidableEq, Repr, Inhabited

namespace Reading

/-- Takes the name of the file, which may be given once and is not empty. -/
def takeFile (r : Reading) (arg : String) : Except Request Reading :=
  if arg = "" || r.file.isSome then .error .misuse else .ok { r with file := some arg }

/-- Takes the flag for verbose output, which may be given once. -/
def takeVerbose (r : Reading) : Except Request Reading :=
  if r.verbose then .error .misuse else .ok { r with verbose := true }

/-- Takes the flag for framed reports, which may be given once. -/
def takeRich (r : Reading) : Except Request Reading :=
  if r.rich then .error .misuse else .ok { r with rich := true }

/-- Takes a flag by its long name. -/
def takeLong (r : Reading) (flag : String) : Except Request Reading :=
  if flag = "verbose" then r.takeVerbose
  else if flag = "rich" then r.takeRich
  else if flag = "help" then .error .help
  else if flag = "version" then .error .version
  else .error .misuse

/-- Takes flags by their letters. -/
def takeShorts : List Char → Reading → Except Request Reading
  | [], r => .ok r
  | c :: cs, r =>
    if c = 'v' then do takeShorts cs (← r.takeVerbose)
    else if c = 'h' then .error .help
    else if c = 'V' then .error .version
    else .error .misuse

/-- Takes one argument that may be a flag. -/
def takeArg (r : Reading) (arg : String) : Except Request Reading :=
  match arg.toList with
  | '-' :: '-' :: flag => r.takeLong (String.ofList flag)
  | '-' :: c :: cs => takeShorts (c :: cs) r
  | _ => r.takeFile arg

/-- Takes all arguments; two dashes alone end the flags. -/
def takeAll : List String → Reading → Except Request Reading
  | [], r => .ok r
  | arg :: args, r =>
    if arg = "--" then args.foldlM takeFile r
    else do takeAll args (← r.takeArg arg)

/-- What the arguments ask for once all are read. -/
def finish (r : Reading) : Request :=
  match r.file with
  | none => .misuse
  | some file => .run ⟨file, r.verbose, r.rich⟩

end Reading

/-- **Understands the arguments of the command.** -/
def request (args : List String) : Request :=
  match Reading.takeAll args {} with
  | .error r => r
  | .ok r => r.finish

/-! ### Replies -/

/-- How the command ends: with its exit code and what it wrote, or with a complaint about its
arguments. -/
inductive Reply where
  | misuse
  | ended (exit : Nat) (stdout : Array UInt8) (stderr : String)
  deriving DecidableEq, Repr, Inhabited

/-- The lines of the help. -/
def helpLines : List String :=
  ["Interpreter for the asdf language",
   "",
   "Usage: asdf [OPTIONS] <FILE>",
   "",
   "Arguments:",
   "  <FILE>  Source file of the program to run",
   "",
   "Options:",
   "  -v, --verbose  Report the duration of each step on stderr",
   "      --rich     Report runtime failures as full diagnostics, with their error code",
   "  -h, --help     Print help",
   "  -V, --version  Print version"]

/-- The text of the help. -/
def helpText : String :=
  String.join (helpLines.map (· ++ "\n"))

/-- The text of the version. -/
def versionText : String := "asdf 0.1.0\n"

/-- How long the two steps took. -/
structure Timing where
  parsing : String
  running : String
  deriving DecidableEq, Repr, Inhabited

/-- The reply to a file that is missing or not a text. -/
def notFound (o : Options) : Reply :=
  .ended 1 #[] ("File not found: " ++ o.file ++ "\n")

/-! ### Sessions -/

/-- Something that is shown to the user. -/
inductive Notice where
  /-- What the command is doing. -/
  | progress (text : String)
  /-- A diagnostic, in a frame. -/
  | framed (d : Diagnostic)
  /-- Why a run stopped, in plain form. -/
  | plain (why : Stop)
  deriving DecidableEq, Repr, Inhabited

namespace Notice

/-- Does the notice report that something went wrong? -/
def isReport : Notice → Bool
  | progress _ => false
  | framed _ | plain _ => true

/-- The notice as it is shown. -/
def text (file : SourceFile) : Notice → String
  | progress text => text
  | framed d => Report.framed file d
  | plain why => Report.ofStop false file why

end Notice

/-- The command at work on a source. -/
structure Session where
  options : Options
  source : String
  /-- Diagnostics that wait to be displayed, the oldest first. -/
  waiting : List Diagnostic := []
  /-- Has there been an error among the diagnostics? -/
  hasErrors : Bool := false
  /-- What has been shown on the error stream. -/
  notices : List Notice := []
  /-- The standard input that is unread, and the standard output. -/
  console : Console := {}
  deriving DecidableEq, Repr, Inhabited

namespace Session

/-- The source with its name. -/
def file (s : Session) : SourceFile :=
  ⟨s.options.file, s.source⟩

/-- The text on the error stream. -/
def stderr (s : Session) : String :=
  String.join (s.notices.map (Notice.text s.file))

/-- Shows something. -/
def tell (s : Session) (n : Notice) : Session :=
  { s with notices := s.notices ++ [n] }

/-- Tells what the command is doing, if it is to be verbose. -/
def progress (s : Session) (text : String) : Session :=
  if s.options.verbose then s.tell (.progress text) else s

/-- Puts a diagnostic with those that wait to be displayed. -/
def emit (s : Session) (d : Diagnostic) : Session :=
  { s with waiting := s.waiting ++ [d], hasErrors := true }

/-- Displays the diagnostics that wait. -/
def display (s : Session) : Session :=
  { s with notices := s.notices ++ s.waiting.map .framed, waiting := [] }

/-- Goes on after the source was read in some time.  An error waits to be displayed. -/
def parsed {α : Type} (s : Session) (time : String) (result : Except ParseError α) : Session :=
  let s := s.progress "Parsing..."
  let s :=
    match result with
    | .error e => s.emit e.diagnostic
    | .ok _ => s
  s.progress ("\rParsed [" ++ time ++ "]\n")

/-- Goes on after the program was run in some time, which left the console as it is now. -/
def ran (s : Session) (time : String) (c : Console) : Session :=
  let s := s.progress "Running...\n"
  let s := { s with console := c }
  s.progress ("Ran the program in [" ++ time ++ "]\n")

/-- Reports why a run stopped, in the form asked for. -/
def report (s : Session) : Stop → Session
  | .failed f =>
    if s.options.rich then (s.emit f.diagnostic).display else s.tell (.plain (.failed f))
  | why => s.tell (.plain why)

/-- **The whole session** with the results of its two steps, and the exit code.  Errors are displayed
before the program is run, and end the session. -/
def conclude (s : Session) (t : Timing) (outcome : Except ParseError Answer) : Nat × Session :=
  let s := s.parsed t.parsing outcome
  let s := if s.hasErrors then s.display else s
  match outcome with
  | .error _ => (1, s)
  | .ok (result, m) =>
    let s := s.ran t.running m.console
    match result with
    | .ok _ => (0, s)
    | .error why => (1, s.report why)

end Session

/-- The session for a source, with the console that the program finds. -/
def session (o : Options) (t : Timing) (text : String) (c : Console)
    (outcome : Except ParseError Answer) : Nat × Session :=
  Session.conclude { options := o, source := text, console := c } t outcome

/-- The reply once the session has ended. -/
def conclude : Nat × Session → Reply
  | (exit, s) => .ended exit s.console.sink.written s.stderr

/-- Reads and runs a source. -/
def outcome (depth : Nat) (text : String) (stdin : List UInt8) : Except ParseError Answer :=
  (Program.parse text).map fun p => p.interpret depth { console := { input := stdin } }

/-- The session for a source and an input, and its exit code. -/
def sessionOn (depth : Nat) (t : Timing) (o : Options) (text : String) (stdin : List UInt8) :
    Nat × Session :=
  session o t text { input := stdin } (outcome depth text stdin)

/-- The text of a file, if there is one and it is a text. -/
def decodeFile (bytes : Option (List UInt8)) : Option String :=
  bytes.bind fun bs => String.fromUTF8? bs.toByteArray

/-- **Runs the command** on the files that `read` knows. -/
def run (depth : Nat) (t : Timing) (read : String → Option (List UInt8)) (args : List String)
    (stdin : List UInt8) : Reply :=
  match request args with
  | .help => .ended 0 helpText.toUTF8.data ""
  | .version => .ended 0 versionText.toUTF8.data ""
  | .misuse => .misuse
  | .run o =>
    match decodeFile (read o.file) with
    | none => notFound o
    | some text => conclude (sessionOn depth t o text stdin)

end Offside.Command
