import Phrasebook.Text.Ranges
import Phrasebook.Text.WidthTables

/-!
# Display widths

How many columns a terminal gives to a character (`charWidth`) and to a text
(`textWidth`).  The width of a text is the sum of the widths of its characters,
except where characters are drawn together: emoji sequences, pairs of line end
characters and the ligatures of some scripts.  A text is therefore measured from
its end, each character seeing what it is followed by.
-/

namespace Phrasebook.Text

/-- Whether a character is a control character. -/
def isControl (c : Char) : Bool :=
  c.toNat < 0x20 || (0x7F ≤ c.toNat && c.toNat < 0xA0)

/-- Whether a character has no column of its own.  The joiner U+2D7F is shown
where it joins nothing, and the filler U+115F takes the place of a letter. -/
def isZeroWidth (c : Char) : Bool :=
  c.toNat != 0x2D7F && c.toNat != 0x115F &&
    (inRanges graphemeExtendRanges c || inRanges defaultIgnorableRanges c ||
      inRanges otherZeroWidthRanges c)

/-- Columns of a character that stands alone; a control character has none. -/
def charWidth (c : Char) : Nat :=
  if c.toNat < 0x7F then (if c.toNat < 0x20 then 0 else 1)
  else if isControl c then 0
  else if c.toNat = 0x17A4 then 2
  else if c.toNat = 0x17D8 then 3
  else if isZeroWidth c then 0
  else if inRanges wideRanges c then 2
  else 1

/-- What a character is followed by, as far as the width of the two together
depends on it. -/
inductive Follow where
  | plain
  | lineFeed
  | skinTone
  | region
  | emoji
  | joinedEmoji
  | alef
  | lamed (joined : Bool)
  | coengLetter
  | yaBuginese (joined : Bool)
  | vowelIYaBuginese
  | tifinagh (joined : Bool)
  | tifinaghJoiner
  | lisuTone
  | orkhonI (joined : Bool)
  deriving DecidableEq

/-- A variation selector in front of what follows. -/
inductive Selector where
  | none
  | emoji
  | text
  deriving DecidableEq

/-- Letters that a preceding U+17D2 turns into a sign below the line. -/
def coengLetterRanges : List (Nat × Nat) :=
  [(0x1780, 0x1782), (0x1784, 0x1787), (0x1789, 0x178C), (0x178E, 0x1793),
   (0x1795, 0x1798), (0x179B, 0x179D), (0x17A0, 0x17A0), (0x17A2, 0x17A2),
   (0x17A7, 0x17A7), (0x17AB, 0x17AC), (0x17AF, 0x17AF)]

/-- Consonants that can be joined in pairs. -/
def tifinaghRanges : List (Nat × Nat) :=
  [(0x2D31, 0x2D65), (0x2D6F, 0x2D6F)]

/-- Default ignorable marks, which do not come between the letters of a
ligature. -/
def transparentRanges : List (Nat × Nat) :=
  [(0x34F, 0x34F), (0x17B4, 0x17B5), (0x180B, 0x180D), (0x180F, 0x180F),
   (0x200D, 0x200D), (0xFE00, 0xFE0F), (0xE0100, 0xE01EF)]

/-- Emoji that a following U+FE0E turns into text of one column. -/
def textPresentationRanges : List (Nat × Nat) :=
  [(0x231A, 0x231B), (0x23E9, 0x23EC), (0x23F0, 0x23F0), (0x23F3, 0x23F3),
   (0x25FD, 0x25FE), (0x2614, 0x2615), (0x2648, 0x2653), (0x267F, 0x267F),
   (0x2693, 0x2693), (0x26A1, 0x26A1), (0x26AA, 0x26AB), (0x26BD, 0x26BE),
   (0x26C4, 0x26C5), (0x26CE, 0x26CE), (0x26D4, 0x26D4), (0x26EA, 0x26EA),
   (0x26F2, 0x26F3), (0x26F5, 0x26F5), (0x26FA, 0x26FA), (0x26FD, 0x26FD),
   (0x2705, 0x2705), (0x270A, 0x270B), (0x2728, 0x2728), (0x274C, 0x274C),
   (0x274E, 0x274E), (0x2753, 0x2755), (0x2757, 0x2757), (0x2795, 0x2797),
   (0x27B0, 0x27B0), (0x27BF, 0x27BF), (0x2B1B, 0x2B1C), (0x2B50, 0x2B50),
   (0x2B55, 0x2B55), (0x1F004, 0x1F004), (0x1F30D, 0x1F30F), (0x1F315, 0x1F315),
   (0x1F31C, 0x1F31C), (0x1F378, 0x1F378), (0x1F393, 0x1F393), (0x1F3A7, 0x1F3A7),
   (0x1F3AC, 0x1F3AE), (0x1F3C2, 0x1F3C2), (0x1F3C4, 0x1F3C4), (0x1F3C6, 0x1F3C6),
   (0x1F3CA, 0x1F3CA), (0x1F3E0, 0x1F3E0), (0x1F3ED, 0x1F3ED), (0x1F408, 0x1F408),
   (0x1F415, 0x1F415), (0x1F41F, 0x1F41F), (0x1F426, 0x1F426), (0x1F442, 0x1F442),
   (0x1F446, 0x1F449), (0x1F44D, 0x1F44E), (0x1F453, 0x1F453), (0x1F46A, 0x1F46A),
   (0x1F47D, 0x1F47D), (0x1F4A3, 0x1F4A3), (0x1F4B0, 0x1F4B0), (0x1F4B3, 0x1F4B3),
   (0x1F4BB, 0x1F4BB), (0x1F4BF, 0x1F4BF), (0x1F4CB, 0x1F4CB), (0x1F4DA, 0x1F4DA),
   (0x1F4DF, 0x1F4DF), (0x1F4E4, 0x1F4E6), (0x1F4EA, 0x1F4ED), (0x1F4F7, 0x1F4F7),
   (0x1F4F9, 0x1F4FB), (0x1F508, 0x1F508), (0x1F50D, 0x1F50D), (0x1F512, 0x1F513),
   (0x1F550, 0x1F567), (0x1F610, 0x1F610), (0x1F687, 0x1F687), (0x1F68D, 0x1F68D),
   (0x1F691, 0x1F691), (0x1F694, 0x1F694), (0x1F698, 0x1F698), (0x1F6AD, 0x1F6AD),
   (0x1F6B2, 0x1F6B2), (0x1F6B9, 0x1F6BA), (0x1F6BC, 0x1F6BC)]

/-- Whether a character is a skin tone. -/
def isSkinTone (c : Char) : Bool :=
  0x1F3FB ≤ c.toNat && c.toNat ≤ 0x1F3FF

/-- Whether a character is one half of a flag. -/
def isRegion (c : Char) : Bool :=
  0x1F1E6 ≤ c.toNat && c.toNat ≤ 0x1F1FF

/-- What a character is for the one before it. -/
def Follow.of (c : Char) : Follow :=
  let n := c.toNat
  if n = 0x5DC then .lamed false
  else if n = 0x1A10 then .yaBuginese false
  else if n = 0x10C03 then .orkhonI false
  else if n = 0xA4FC ∨ n = 0xA4FD then .lisuTone
  else if isRegion c then .region
  else if isSkinTone c then .skinTone
  else if inRanges arabicAlefRanges c then .alef
  else if inRanges coengLetterRanges c then .coengLetter
  else if inRanges tifinaghRanges c then .tifinagh false
  else if inRanges emojiPresentationRanges c then .emoji
  else .plain

/-- A letter of a ligature behind a joiner. -/
def Follow.join : Follow → Follow
  | .lamed _ => .lamed true
  | .yaBuginese _ => .yaBuginese true
  | .tifinagh _ => .tifinagh true
  | .orkhonI _ => .orkhonI true
  | other => other

/-- Whether marks may stand between the character and what follows without
keeping the two apart. -/
def Follow.seesThroughMarks : Follow → Bool
  | .lamed _ => true
  | .yaBuginese _ => true
  | .vowelIYaBuginese => true
  | .tifinagh _ => true
  | .tifinaghJoiner => true
  | .coengLetter => true
  | .lisuTone => true
  | .orkhonI _ => true
  | _ => false

/-- The columns a character adds in front of what follows, if the two are drawn
together, and what the character is for the one before it. -/
def Follow.ligature? (follow : Follow) (c : Char) : Option (Int × Follow) :=
  let n := c.toNat
  match follow with
  | .alef =>
      if inRanges arabicLamRanges c then some (0, .plain)
      else if isZeroWidth c then some (0, .alef)
      else none
  | .lamed true => if n = 0x5D0 then some (0, .plain) else none
  | .coengLetter => if n = 0x17D2 then some (-1, .plain) else none
  | .yaBuginese true => if n = 0x1A17 then some (0, .vowelIYaBuginese) else none
  | .vowelIYaBuginese => if n = 0x1A15 then some (0, .plain) else none
  | .tifinagh joined =>
      if n = 0x2D7F then some (1, .tifinaghJoiner)
      else if joined && inRanges tifinaghRanges c then some (0, .plain)
      else none
  | .tifinaghJoiner => if inRanges tifinaghRanges c then some (-1, .plain) else none
  | .lisuTone => if 0xA4F8 ≤ n ∧ n ≤ 0xA4FB then some (0, .plain) else none
  | .orkhonI true => if n = 0x10C32 then some (0, .plain) else none
  | .skinTone =>
      if n = 0x200D then some (0, .joinedEmoji)
      else if inRanges emojiModifierBaseRanges c then some (0, .emoji)
      else none
  | .emoji => if n = 0x200D then some (0, .joinedEmoji) else none
  | .joinedEmoji =>
      if n = 0x20E3 then some (0, .joinedEmoji)
      else if isSkinTone c then some (0, .skinTone)
      else if inRanges emojiPresentationRanges c then some (0, .emoji)
      else none
  | _ => none

/-- The columns of a character in front of what follows. -/
def widthBefore (c : Char) (next : Selector × Follow) : Int × Selector × Follow :=
  let (selector, follow) := next
  let alone : Int × Selector × Follow :=
    (if isControl c then 1 else charWidth c, .none, .of c)
  if selector = .emoji ∧ inRanges emojiRanges c ∧ !isRegion c ∧ !isSkinTone c then
    (if follow = .joinedEmoji then 0 else 2, .none, .emoji)
  else if selector = .text ∧ inRanges textPresentationRanges c then (1, .none, .plain)
  else if c = '\n' then (1, .none, .lineFeed)
  else if c = '\r' ∧ follow = .lineFeed then (0, .none, .plain)
  else if c.toNat = 0xFE0F then (0, .emoji, follow)
  else if c.toNat = 0xFE0E then (0, .text, follow)
  else if follow.seesThroughMarks ∧ c.toNat = 0x200D then (0, .none, follow.join)
  else if follow.seesThroughMarks ∧ inRanges transparentRanges c then (0, .none, follow)
  else
    match follow.ligature? c with
    | some (columns, follow) => (columns, .none, follow)
    | none => alone

/-- Columns of a text on a terminal; here a control character has one. -/
def textWidth (text : List Char) : Nat :=
  let total := text.foldr
    (fun c state =>
      let (columns, next) := widthBefore c state.2
      (state.1 + columns, next))
    ((0 : Int), Selector.none, Follow.plain)
  total.1.toNat

end Phrasebook.Text
