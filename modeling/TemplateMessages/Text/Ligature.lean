import TemplateMessages.Text.Columns

set_option autoImplicit false

/-!
# Ligatures

Letters of some scripts are written as one with letters in front of them and take less room there. A
text is read from its end here, so a letter is found by what stands behind it.
-/

namespace TemplateMessages.Text

/-- Letters that form a ligature with a letter in front of them, and parts of a ligature. -/
inductive Ligature where
  | hebrewLamed
  | khmerLetter
  | bugineseYa
  | bugineseVowelYa
  | tifinaghLetter
  | tifinaghJoined
  | lisuTone
  | turkicI
  | kiratRaiE
  | kiratRaiAi
  deriving DecidableEq, Repr, Inhabited

namespace Ligature

def khmerRanges : List (Nat × Nat) := [
  (0x1780, 0x1782), (0x1784, 0x1787), (0x1789, 0x178C), (0x178E, 0x1793), (0x1795, 0x1798),
  (0x179B, 0x179D), (0x17A0, 0x17A0), (0x17A2, 0x17A2), (0x17A7, 0x17A7), (0x17AB, 0x17AC),
  (0x17AF, 0x17AF)]

def isTifinaghLetter (code : Nat) : Bool :=
  (0x2D31 ≤ code && code ≤ 0x2D65) || code == 0x2D6F

def ofLetter? (c : Char) : Option Ligature :=
  let code := c.toNat
  if code = 0x5DC then some hebrewLamed
  else if inRanges khmerRanges code then some khmerLetter
  else if code = 0x1A10 then some bugineseYa
  else if isTifinaghLetter code then some tifinaghLetter
  else if code = 0xA4FC ∨ code = 0xA4FD then some lisuTone
  else if code = 0x10C03 then some turkicI
  else if code = 0x16D67 then some kiratRaiE
  else if code = 0x16D68 then some kiratRaiAi
  else none

/-- The columns that a letter in front adds to a ligature, and the ligature that they make together,
if there can be more in front of it. A joiner stands between the two when `joined` says so. -/
def extend? (ligature : Ligature) (joined : Bool) (c : Char) : Option (Int × Option Ligature) :=
  let code := c.toNat
  match ligature, joined with
  | hebrewLamed, true => if code = 0x5D0 then some (0, none) else none
  | khmerLetter, false => if code = 0x17D2 then some (-1, none) else none
  | bugineseYa, true => if code = 0x1A17 then some (0, some bugineseVowelYa) else none
  | bugineseVowelYa, false => if code = 0x1A15 then some (0, none) else none
  | tifinaghLetter, joined =>
    if code = 0x2D7F then some (1, some tifinaghJoined)
    else if joined && isTifinaghLetter code then some (0, none)
    else none
  | tifinaghJoined, false => if isTifinaghLetter code then some (-1, none) else none
  | lisuTone, false => if 0xA4F8 ≤ code ∧ code ≤ 0xA4FB then some (0, none) else none
  | turkicI, true => if code = 0x10C32 then some (0, none) else none
  | kiratRaiE, false =>
    if code = 0x16D63 ∨ code = 0x16D69 then some (0, none)
    else if code = 0x16D67 then some (0, some kiratRaiAi)
    else if code = 0x16D68 then some (1, some kiratRaiE)
    else none
  | kiratRaiAi, false => if code = 0x16D63 then some (0, none) else none
  | _, _ => none

def transparentRanges : List (Nat × Nat) := [
  (0x34F, 0x34F), (0x17B4, 0x17B5), (0x180B, 0x180D), (0x180F, 0x180F), (0x200D, 0x200D),
  (0xFE00, 0xFE0F), (0xE0100, 0xE01EF)]

def isTransparent (c : Char) : Bool :=
  inRanges transparentRanges c.toNat

end Ligature

namespace LamAlef

def lamRanges : List (Nat × Nat) := [
  (0x644, 0x644), (0x6B5, 0x6B8), (0x76A, 0x76A), (0x8A6, 0x8A6), (0x8C7, 0x8C7)]

def alefRanges : List (Nat × Nat) := [
  (0x622, 0x623), (0x625, 0x625), (0x627, 0x627), (0x671, 0x673), (0x675, 0x675), (0x773, 0x774),
  (0x870, 0x882)]

/-- Ranges of characters that take no column and yet keep a lam and an alef apart. -/
def separatorRanges : List (Nat × Nat) := [
  (0x605, 0x605), (0x890, 0x891), (0x8E2, 0x8E2), (0x9BE, 0x9BE), (0x9D7, 0x9D7), (0xB3E, 0xB3E),
  (0xB57, 0xB57), (0xBBE, 0xBBE), (0xBD7, 0xBD7), (0xCC0, 0xCC0), (0xCC2, 0xCC2), (0xCC7, 0xCC8),
  (0xCCA, 0xCCB), (0xCD5, 0xCD6), (0xD3E, 0xD3E), (0xD4E, 0xD4E), (0xD57, 0xD57), (0xDCF, 0xDCF),
  (0xDDF, 0xDDF), (0x1160, 0x11FF), (0x1715, 0x1715), (0x1734, 0x1734), (0x180E, 0x180E),
  (0x1B35, 0x1B35), (0x1B3B, 0x1B3B), (0x1B3D, 0x1B3D), (0x1B43, 0x1B44), (0x1BAA, 0x1BAA),
  (0x1BF2, 0x1BF3), (0x200C, 0x200D), (0x2065, 0x2069), (0x302E, 0x302F), (0x3164, 0x3164),
  (0xA8FA, 0xA8FA), (0xA953, 0xA953), (0xA9C0, 0xA9C0), (0xD7B0, 0xD7C6), (0xD7CB, 0xD7FB),
  (0xFFA0, 0xFFA0), (0xFFF0, 0xFFF8), (0x111C0, 0x111C0), (0x11235, 0x11235), (0x1133E, 0x1133E),
  (0x1134D, 0x1134D), (0x11357, 0x11357), (0x113B8, 0x113B8), (0x113C2, 0x113C2),
  (0x113C5, 0x113C5), (0x113C7, 0x113C9), (0x113CF, 0x113CF), (0x114B0, 0x114B0),
  (0x114BD, 0x114BD), (0x115AF, 0x115AF), (0x116B6, 0x116B6), (0x11930, 0x11930),
  (0x1193D, 0x1193D), (0x11D46, 0x11D46), (0x11F41, 0x11F41), (0x16FF0, 0x16FF1),
  (0x1D165, 0x1D166), (0x1D16D, 0x1D172), (0xE0000, 0xE0000), (0xE0002, 0xE001F),
  (0xE0080, 0xE00FF), (0xE01F0, 0xE0FFF)]

def isLam (c : Char) : Bool :=
  inRanges lamRanges c.toNat

def isAlef (c : Char) : Bool :=
  inRanges alefRanges c.toNat

def isMark (c : Char) : Bool :=
  isZeroWidth c && !inRanges separatorRanges c.toNat

end LamAlef

end TemplateMessages.Text
