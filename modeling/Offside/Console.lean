import Offside.Failure
import Offside.Text.Lines

/-!
# The console

What a program reads and writes: the bytes of its input that are still unread, and a sink that may
take only so many bytes in all.  A line is read up to and with its line feed; the line feed, and a
carriage return right before it, are not part of what is read.
-/

namespace Offside

/-- Where output goes. -/
structure Sink where
  /-- All bytes written so far. -/
  written : Array UInt8 := #[]
  /-- How many bytes the sink takes in all, if there is a bound. -/
  limit : Option Nat := none
  /-- Whether the sink fails when it is told that nothing more will come. -/
  flushFails : Bool := false
  deriving DecidableEq, Repr, Inhabited

namespace Sink

/-- How many of some more bytes the sink still takes. -/
def room (s : Sink) (size : Nat) : Nat :=
  match s.limit with
  | none => size
  | some n => min size (n - s.written.size)

/-- Writes the bytes that fit. -/
def write (s : Sink) (bytes : Array UInt8) : Sink :=
  { s with written := s.written ++ bytes.take (s.room bytes.size) }

/-- Would all of the bytes fit? -/
def fits (s : Sink) (bytes : Array UInt8) : Bool :=
  s.room bytes.size = bytes.size

end Sink

/-- The input and output of a program. -/
structure Console where
  /-- The bytes that are still unread. -/
  input : List UInt8 := []
  sink : Sink := {}
  deriving DecidableEq, Repr, Inhabited

namespace Console

/-- Cuts off the first line with its line feed, if it has one. -/
def cutLine : List UInt8 → List UInt8 × List UInt8
  | [] => ([], [])
  | b :: bs =>
    if b = 10 then ([b], bs)
    else
      let (line, rest) := cutLine bs
      (b :: line, rest)

/-- The text of a line. -/
def decodeLine (line : List UInt8) : Except Cause String :=
  match String.fromUTF8? line.toByteArray with
  | none => .error (.stream "stream did not contain valid UTF-8")
  | some s => .ok (String.ofList (Text.chomp s.toList))

/-- Reads a line.  A line that is not a text is gone all the same. -/
def readLine (c : Console) : Except Cause String × Console :=
  match c.input with
  | [] => (.error (.io "EOF when reading a line"), c)
  | bytes =>
    let (line, rest) := cutLine bytes
    (decodeLine line, { c with input := rest })

/-- Writes a text, or as much of it as fits. -/
def write (c : Console) (text : String) : Except Cause Unit × Console :=
  let bytes := text.toUTF8.data
  (if c.sink.fits bytes then .ok () else .error (.stream "sink full"),
    { c with sink := c.sink.write bytes })

/-- Tells the sink that nothing more will come. -/
def flush (c : Console) : Except Cause Unit :=
  if c.sink.flushFails then .error (.stream "flush failed") else .ok ()

/-- Nothing is lost by cutting off a line. -/
theorem cutLine_append (bs : List UInt8) : (cutLine bs).1 ++ (cutLine bs).2 = bs := by
  induction bs with
  | nil => rfl
  | cons b bs ih =>
    by_cases h : b = 10
    · simp [cutLine, h]
    · simp [cutLine, h, ih]

end Console

end Offside
