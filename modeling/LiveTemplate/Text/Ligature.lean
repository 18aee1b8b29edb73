/-
Letters that are drawn as one. A text is read from its end, so a ligature is known first by its
last letter, and stays open until its first letter or any other character.
-/
import LiveTemplate.Text.CharWidth

namespace LiveTemplate.Text

/-- The characters without a column of their own that end an Arabic ligature. -/
def opaqueRanges : Ranges :=
  [
    (0x605, 0x605), (0x890, 0x891), (0x8E2, 0x8E2), (0x9BE, 0x9BE), (0x9D7, 0x9D7),
    (0xB3E, 0xB3E), (0xB57, 0xB57), (0xBBE, 0xBBE), (0xBD7, 0xBD7), (0xCC0, 0xCC0),
    (0xCC2, 0xCC2), (0xCC7, 0xCC8), (0xCCA, 0xCCB), (0xCD5, 0xCD6), (0xD3E, 0xD3E),
    (0xD4E, 0xD4E), (0xD57, 0xD57), (0xDCF, 0xDCF), (0xDDF, 0xDDF), (0x1160, 0x11FF),
    (0x180E, 0x180E), (0x1B35, 0x1B35), (0x1B3B, 0x1B3B), (0x1B3D, 0x1B3D), (0x1B43, 0x1B43),
    (0x200C, 0x200D), (0x2065, 0x2069), (0x302E, 0x302F), (0x3164, 0x3164), (0xA8FA, 0xA8FA),
    (0xD7B0, 0xD7C6), (0xD7CB, 0xD7FB), (0xFF9E, 0xFFA0), (0xFFF0, 0xFFF8), (0x111C2, 0x111C3),
    (0x1133E, 0x1133E), (0x11357, 0x11357), (0x114B0, 0x114B0), (0x114BD, 0x114BD),
    (0x115AF, 0x115AF), (0x11930, 0x11930), (0x1193F, 0x1193F), (0x11941, 0x11941),
    (0x11A3A, 0x11A3A), (0x11A84, 0x11A89), (0x11D46, 0x11D46), (0x11F02, 0x11F02),
    (0x1D165, 0x1D165), (0x1D16E, 0x1D172), (0xE0000, 0xE0000), (0xE0002, 0xE001F),
    (0xE0080, 0xE00FF), (0xE01F0, 0xE0FFF)]

/-- The marks that are never drawn; they are part of the ligature around them. -/
def hiddenMarkRanges : Ranges :=
  [(0x34F, 0x34F), (0x17B4, 0x17B5), (0x180B, 0x180D), (0x180F, 0x180F), (0xFE00, 0xFE0F),
    (0xE0100, 0xE01EF)]

/-- The Arabic letters that are an alef with or without marks. -/
def alefRanges : Ranges :=
  [(0x622, 0x623), (0x625, 0x625), (0x627, 0x627), (0x671, 0x673), (0x675, 0x675),
    (0x773, 0x774), (0x870, 0x882)]

/-- The Arabic letters that are a lam with or without marks. -/
def lamRanges : Ranges :=
  [(0x644, 0x644), (0x6B5, 0x6B8), (0x76A, 0x76A), (0x8A6, 0x8A6), (0x8C7, 0x8C7)]

/-- The Khmer letters that are drawn below the letter before them after the sign coeng. -/
def subscriptRanges : Ranges :=
  [(0x1780, 0x1782), (0x1784, 0x1787), (0x1789, 0x178C), (0x178E, 0x1793), (0x1795, 0x1798),
    (0x179B, 0x179D), (0x17A0, 0x17A0), (0x17A2, 0x17A2), (0x17A7, 0x17A7), (0x17AB, 0x17AC),
    (0x17AF, 0x17AF)]

/-- The Tifinagh letters that are consonants. -/
def consonantRanges : Ranges := [(0x2D31, 0x2D65), (0x2D6F, 0x2D6F)]

/-- The Lisu tone letters that begin a pair. -/
def firstToneRanges : Ranges := [(0xA4F8, 0xA4FB)]

/-- The Lisu tone letters that end a pair. -/
def lastToneRanges : Ranges := [(0xA4FC, 0xA4FD)]

/-- The part of a ligature that stands at the beginning of a text. -/
inductive Ligature where
  /-- An Arabic alef. -/
  | alef
  /-- A Hebrew lamed, after a joiner if `joined`. -/
  | lamed (joined : Bool)
  /-- A Khmer letter that can be drawn below another. -/
  | subscript
  /-- A Buginese ya, after a joiner if `joined`. -/
  | ya (joined : Bool)
  /-- The Buginese vowel sign i and a joined ya. -/
  | vowelYa
  /-- A Tifinagh consonant, after a joiner if `joined`. -/
  | consonant (joined : Bool)
  /-- The Tifinagh joiner, which takes a column if no consonant is before it, and a consonant. -/
  | pendingConsonant
  /-- The last of two Lisu tone letters. -/
  | tone
  /-- An Old Turkic i, after a joiner if `joined`. -/
  | orkhonI (joined : Bool)
deriving Repr, DecidableEq

namespace Ligature

/-- The ligature that a character can be the end of. -/
def endingIn? (c : Char) : Option Ligature :=
  if c.toNat == 0x5DC then some (.lamed false)
  else if alefRanges.has c then some .alef
  else if subscriptRanges.has c then some .subscript
  else if c.toNat == 0x1A10 then some (.ya false)
  else if consonantRanges.has c then some (.consonant false)
  else if lastToneRanges.has c then some .tone
  else if c.toNat == 0x10C03 then some (.orkhonI false)
  else none

/-- The ligature with a joiner before it. -/
def join : Ligature → Ligature
  | .lamed _ => .lamed true
  | .ya _ => .ya true
  | .consonant _ => .consonant true
  | .orkhonI _ => .orkhonI true
  | ligature => ligature

/-- The ligature with a character before it that is never drawn. -/
def passing? (ligature : Ligature) (c : Char) : Option Ligature :=
  if ligature = .alef then
    if charWidth c == 0 && !opaqueRanges.has c then some .alef else none
  else if isJoiner c then some ligature.join
  else if hiddenMarkRanges.has c then some ligature
  else none

/-- The columns that a character before a ligature adds, which are negative if the character takes
back a column that was counted, and the ligature that is open then. There is no result if the
character is not part of the ligature. -/
def extend? (ligature : Ligature) (c : Char) : Option (Int × Option Ligature) :=
  match ligature with
  | .alef => if lamRanges.has c then some (0, none) else none
  | .lamed true => if c.toNat == 0x5D0 then some (0, none) else none
  | .subscript => if c.toNat == 0x17D2 then some (-1, none) else none
  | .ya true => if c.toNat == 0x1A17 then some (0, some .vowelYa) else none
  | .vowelYa => if c.toNat == 0x1A15 then some (0, none) else none
  | .consonant joined =>
    if c.toNat == 0x2D7F then some (1, some .pendingConsonant)
    else if joined && consonantRanges.has c then some (0, none)
    else none
  | .pendingConsonant => if consonantRanges.has c then some (-1, none) else none
  | .tone => if firstToneRanges.has c then some (0, none) else none
  | .orkhonI true => if c.toNat == 0x10C32 then some (0, none) else none
  | .lamed false | .ya false | .orkhonI false => none

end Ligature

end LiveTemplate.Text
