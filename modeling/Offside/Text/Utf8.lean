/-!
# Decoding bytes

A text that was cut in the middle of a character, or that never was one, is still shown: every
longest piece that starts like a character but does not end as one becomes a replacement mark.
-/

namespace Offside.Text

/-- What stands for bytes that are not a character. -/
def replacement : Char := '\uFFFD'

/-- A first byte of a character: how many bytes follow it, the range of the next one, and the number
that its lead bits are to be taken modulo. -/
structure Lead where
  missing : Nat
  low : UInt8
  high : UInt8
  modulus : Nat

/-- What a byte says about the character that starts with it, if one can. -/
def lead? (b : UInt8) : Option Lead :=
  if 0xC2 ≤ b && b ≤ 0xDF then some ⟨1, 0x80, 0xBF, 32⟩
  else if b == 0xE0 then some ⟨2, 0xA0, 0xBF, 16⟩
  else if b == 0xED then some ⟨2, 0x80, 0x9F, 16⟩
  else if 0xE1 ≤ b && b ≤ 0xEF then some ⟨2, 0x80, 0xBF, 16⟩
  else if b == 0xF0 then some ⟨3, 0x90, 0xBF, 8⟩
  else if b == 0xF4 then some ⟨3, 0x80, 0x8F, 8⟩
  else if 0xF1 ≤ b && b ≤ 0xF3 then some ⟨3, 0x80, 0xBF, 8⟩
  else none

/-- A character that has been read in part: the value so far, how many bytes are missing, and the
range in which the next one lies. -/
structure OpenChar where
  value : Nat
  missing : Nat
  low : UInt8
  high : UInt8

/-- Starts a character with its first byte: the text that is complete, and what is left open. -/
def startChar (b : UInt8) : List Char × Option OpenChar :=
  if b < 0x80 then ([Char.ofNat b.toNat], none)
  else
    match lead? b with
    | none => ([replacement], none)
    | some l => ([], some ⟨b.toNat % l.modulus, l.missing, l.low, l.high⟩)

/-- Decodes bytes, with a character left open or not. -/
def decodeFrom : Option OpenChar → List UInt8 → List Char
  | none, [] => []
  | some _, [] => [replacement]
  | none, b :: bs =>
    let (cs, next) := startChar b
    cs ++ decodeFrom next bs
  | some p, b :: bs =>
    if p.low ≤ b && b ≤ p.high then
      let value := p.value * 64 + b.toNat % 64
      if p.missing = 1 then Char.ofNat value :: decodeFrom none bs
      else decodeFrom (some ⟨value, p.missing - 1, 0x80, 0xBF⟩) bs
    else
      let (cs, next) := startChar b
      replacement :: cs ++ decodeFrom next bs

/-- The text of some bytes, with replacement marks where they are not a text. -/
def decodeLossy (bytes : List UInt8) : String :=
  String.ofList (decodeFrom none bytes)

end Offside.Text
