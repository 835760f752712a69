import Warden.Describe.Mark
import Warden.Describe.Unassigned
/-! # Characters that are not shown
A character has no visible form of its own if it is a control or format character, a separator other
than the space, private, a filler or not assigned at all. A description writes such characters and
combining marks as escapes, so that a reader sees that they are there. -/

namespace Warden

namespace Describe

/-- Controls, format characters, separators other than the space, private characters and the
fillers of Korean syllables. -/
def hiddenRanges : List (Nat × Nat) :=
  [
    (0x0, 0x1F), (0x7F, 0xA0), (0xAD, 0xAD), (0x600, 0x605), (0x61C, 0x61C), (0x6DD, 0x6DD),
    (0x70F, 0x70F), (0x890, 0x891), (0x8E2, 0x8E2), (0x115F, 0x1160), (0x1680, 0x1680),
    (0x180E, 0x180E), (0x2000, 0x200F), (0x2028, 0x202F), (0x205F, 0x2064), (0x2066, 0x206F),
    (0x3000, 0x3000), (0x3164, 0x3164), (0xE000, 0xF8FF), (0xFEFF, 0xFEFF), (0xFFA0, 0xFFA0),
    (0xFFF9, 0xFFFB), (0x110BD, 0x110BD), (0x110CD, 0x110CD), (0x13430, 0x1343F),
    (0x1BCA0, 0x1BCA3), (0x1D173, 0x1D17A), (0xE0001, 0xE0001), (0xE0020, 0xE007F),
    (0xF0000, 0xFFFFD), (0x100000, 0x10FFFD)]

/-- Whether a number lies in one of several ranges. -/
def inRanges (ranges : List (Nat × Nat)) (n : Nat) : Bool :=
  ranges.any fun range => range.1 ≤ n && n ≤ range.2

/-- Whether no character is assigned to the code point. -/
def isUnassigned (c : Char) : Bool :=
  inRanges unassignedEarly c.toNat || inRanges unassignedMiddle c.toNat
    || inRanges unassignedLate c.toNat || inRanges unassignedLast c.toNat

/-- Whether a character has no visible form of its own. -/
def isHidden (c : Char) : Bool := inRanges hiddenRanges c.toNat || isUnassigned c

/-- Whether a character combines with the one in front of it. -/
def isMark (c : Char) : Bool :=
  inRanges marksEarly c.toNat || inRanges marksMiddle c.toNat || inRanges marksLate c.toNat

end Describe

end Warden
