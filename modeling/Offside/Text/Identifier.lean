import Offside.Text.Letter
import Offside.Text.Mark
import Offside.Text.Number

/-!
# Characters of names

A name starts with a letter or an underscore and goes on with letters, marks, decimal digits and
connecting punctuation.  The two classes are closed under compatibility normalisation, which takes a
few letters out of the first class and adds a few characters to both.

Names admit newer letters and marks than the tables of letters and marks hold: those tables also
decide which characters spell a placeholder and which are shown in a quoted text, where the newer
ones do not count yet.
-/

namespace Offside.Text

/-- Letters that may not start a name, since their normal form does not start with a letter. -/
def notInitialRanges : Ranges :=
  [(0x37A, 0x37A), (0xE33, 0xE33), (0xEB3, 0xEB3), (0x2E2F, 0x2E2F), (0xFC5E, 0xFC63),
   (0xFDFA, 0xFDFB), (0xFE70, 0xFE70), (0xFE72, 0xFE72), (0xFE74, 0xFE74), (0xFE76, 0xFE76),
   (0xFE78, 0xFE78), (0xFE7A, 0xFE7A), (0xFE7C, 0xFE7C), (0xFE7E, 0xFE7E), (0xFF9E, 0xFF9F)]

/-- Characters that may start a name though they are not letters. -/
def otherInitialRanges : Ranges :=
  [(0x1885, 0x1886), (0x2118, 0x2118), (0x212E, 0x212E)]

/-- Newer letters that may start a name: additions to the Armenian, Latin, Arabic, Devanagari, Tangut,
Khitan, kana and Han letters, the archaic cuneiform numerals, the Jurchen characters with their
radicals, and the seal script. -/
def newerLetterRanges : Ranges :=
  [(0x558, 0x558), (0x58B, 0x58C), (0x208F, 0x208F), (0x209D, 0x209F), (0xA7DD, 0xA7DD),
   (0xA7E2, 0xA7E2), (0xAB6C, 0xAB6D), (0x107BB, 0x107BF), (0x10ED9, 0x10EEE), (0x11B0A, 0x11B0A),
   (0x1246F, 0x1246F), (0x12475, 0x1247F), (0x12550, 0x12686), (0x18CD6, 0x18CDA),
   (0x18D1F, 0x18D20), (0x18E00, 0x19191), (0x191A0, 0x191D2), (0x1B168, 0x1B168),
   (0x1DF1F, 0x1DF24), (0x1DF2B, 0x1DF96), (0x2B81E, 0x2B81E), (0x3D000, 0x3FC3F)]

/-- Newer marks that may stand inside a name: Hebrew points, combining diacritics, Arabic and Indic
signs, and combining signs of musical scores. -/
def newerMarkRanges : Ranges :=
  [(0x5C8, 0x5C9), (0x1ADE, 0x1ADF), (0x1AEC, 0x1AF0), (0x10ECB, 0x10ECF), (0x11DF0, 0x11DF1),
   (0x1D127, 0x1D128), (0x1D25B, 0x1D25C), (0x1D25F, 0x1D25F)]

/-- Connecting punctuation, such as the underscore. -/
def connectorRanges : Ranges :=
  [(0x5F, 0x5F), (0x203F, 0x2040), (0x2054, 0x2054), (0xFE33, 0xFE34), (0xFE4D, 0xFE4F),
   (0xFF3F, 0xFF3F)]

/-- Further characters that may stand inside a name. -/
def otherInnerRanges : Ranges :=
  [(0xB7, 0xB7), (0x387, 0x387), (0xE33, 0xE33), (0xEB3, 0xEB3), (0x1369, 0x1371),
   (0x19DA, 0x19DA), (0x200C, 0x200D), (0x30FB, 0x30FB), (0xFF65, 0xFF65), (0xFF9E, 0xFF9F)]

/-- A character that may start a name, the underscore apart. -/
def isNameStart (c : Char) : Bool :=
  (isLetter c && !notInitialRanges.contains c) || otherInitialRanges.contains c ||
    newerLetterRanges.contains c

/-- A character that may stand inside a name. -/
def isNameInner (c : Char) : Bool :=
  isNameStart c || isDecimalDigit c || connectorRanges.contains c || isMark c ||
    newerMarkRanges.contains c || otherInnerRanges.contains c

end Offside.Text
