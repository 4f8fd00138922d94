import Curly.Text.Range

/-!
# Hangul

The letters of a Hangul syllable are written one after the other, or the syllable has a code point
of its own. Fillers take the place of a letter that is missing.
-/

namespace Curly.Text

/-- What a character is to a Hangul syllable. -/
inductive Hangul
  /-- A consonant that begins a syllable. -/
  | leading
  /-- A vowel. -/
  | vowel
  /-- A consonant that ends a syllable. -/
  | trailing
  /-- A whole syllable that ends in its vowel. -/
  | openSyllable
  /-- A whole syllable that ends in a consonant. -/
  | closedSyllable
  deriving DecidableEq

namespace Hangul

/-- What the character is to a syllable. The vowel signs of Kirat Rai join like vowels. -/
def ofChar? (c : Char) : Option Hangul :=
  let n := c.toNat
  if inRanges [(0x1100, 0x115F), (0xA960, 0xA97C)] n then some leading
  else if inRanges [(0x1160, 0x11A7), (0xD7B0, 0xD7C6), (0x16D63, 0x16D63), (0x16D67, 0x16D6A)] n
  then some vowel
  else if inRanges [(0x11A8, 0x11FF), (0xD7CB, 0xD7FB)] n then some trailing
  else if inRanges [(0xAC00, 0xD7A3)] n then
    -- A vowel has 27 endings and the open syllable.
    if (n - 0xAC00) % 28 = 0 then some openSyllable else some closedSyllable
  else none

/-- Whether the second goes on with the syllable of the first. -/
def joins : Hangul → Hangul → Bool
  | leading, trailing => false
  | leading, _ => true
  | openSyllable, vowel | openSyllable, trailing => true
  | vowel, vowel | vowel, trailing => true
  | closedSyllable, trailing | trailing, trailing => true
  | _, _ => false

end Hangul

/-- Whether the character stands for a letter that is missing. -/
def isFiller (c : Char) : Bool := ['\u115F', '\u1160', '\u3164', '\uFFA0'].contains c

end Curly.Text
