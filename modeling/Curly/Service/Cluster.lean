import Curly.Service.Conjunct
import Curly.Service.Pictograph
import Curly.Service.SpacingMark
import Curly.Text.Combining
import Curly.Text.Hangul

/-!
# Clusters

What a reader takes for one character: a letter with its marks, a syllable, a flag, a picture made
of pictures. `clusters` cuts a text before every character that does not join what stands before
it.
-/

namespace Curly.Text

/-! ## Parts of clusters -/

/-- Joins the pictographs around it. -/
def joiner : Char := '\u200D'

/-- Keeps the characters around it from joining. -/
def nonJoiner : Char := '\u200C'

/-- The code points that are a cluster of their own and take no marks. -/
def boundaryRanges : List (Nat × Nat) :=
  [(0x00, 0x1F), (0x7F, 0x9F), (0xAD, 0xAD), (0x61C, 0x61C), (0x180E, 0x180E), (0x200B, 0x200B),
   (0x200E, 0x200F), (0x2028, 0x202E), (0x2060, 0x206F), (0xFEFF, 0xFEFF), (0xFFF0, 0xFFFB),
   (0x13430, 0x1343F), (0x1BCA0, 0x1BCA3), (0x1D173, 0x1D17A), (0xE0000, 0xE001F),
   (0xE0080, 0xE00FF), (0xE01F0, 0xE0FFF)]

/-- Whether the character is a cluster of its own. -/
def isBoundary (c : Char) : Bool := inRanges boundaryRanges c.toNat

/-- The code points of the signs that belong to the character after them. -/
def prependedRanges : List (Nat × Nat) :=
  [(0x600, 0x605), (0x6DD, 0x6DD), (0x70F, 0x70F), (0x890, 0x891), (0x8E2, 0x8E2), (0xD4E, 0xD4E),
   (0x110BD, 0x110BD), (0x110CD, 0x110CD), (0x111C2, 0x111C3), (0x113D1, 0x113D1),
   (0x1193F, 0x1193F), (0x11941, 0x11941), (0x11A84, 0x11A89), (0x11D46, 0x11D46),
   (0x11F02, 0x11F02)]

/-- Whether the character belongs to the one after it. -/
def isPrepended (c : Char) : Bool := inRanges prependedRanges c.toNat

/-- Whether the character is one of the letters of which two make a flag. -/
def isFlagLetter (c : Char) : Bool := inRanges [(0x1F1E6, 0x1F1FF)] c.toNat

/-- Whether the character is drawn onto the one before it. -/
def isMark (c : Char) : Bool := isCombining c || isToneModifier c

/-! ## What joins -/

/-- Whether the second character goes on with the syllable of the first. -/
def joinsSyllable (last c : Char) : Bool :=
  match Hangul.ofChar? last, Hangul.ofChar? c with
  | some h, some k => h.joins k
  | _, _ => false

/-- Whether a consonant would make a conjunct with the end of the text, which is given
backwards: marks, one of them a linker, and a consonant before them. -/
def endsLinked (before : List Char) : Bool :=
  let inConjunct c := (isMark c || c = joiner) && c != nonJoiner
  (before.takeWhile inConjunct).any isLinker &&
    (before.dropWhile inConjunct).head?.any isConjunctConsonant

/-- Whether a pictograph would make one picture with the end of the text, which is given
backwards: a joiner, marks, and a pictograph before them. -/
def endsJoined (before : List Char) : Bool :=
  before.head? = some joiner && (before.tail.dropWhile isMark).head?.any isPictograph

/-- Whether the end of the text, which is given backwards, is half a flag. -/
def endsInHalfFlag (before : List Char) : Bool := (before.takeWhile isFlagLetter).length % 2 = 1

/-- Whether a character joins the text before it, which is given backwards. -/
def joins (before : List Char) (c : Char) : Bool :=
  match before with
  | [] => false
  | last :: _ =>
    if last = '\r' && c = '\n' then true
    else if isBoundary last || isBoundary c then false
    else isMark c || c = joiner || isSpacingMark c || isPrepended last || joinsSyllable last c ||
      isConjunctConsonant c && endsLinked before || isPictograph c && endsJoined before ||
      isFlagLetter c && endsInHalfFlag before

/-! ## Cutting a text -/

/-- The clusters of a text of which a first part, given backwards, is the cluster that is
open. -/
def clustersFrom (opened : List Char) : List Char → List (List Char)
  | [] => [opened.reverse]
  | c :: cs =>
    if joins opened c then clustersFrom (c :: opened) cs
    else opened.reverse :: clustersFrom [c] cs

/-- The clusters of a text. -/
def clusters : List Char → List (List Char)
  | [] => []
  | c :: cs => clustersFrom [c] cs

end Curly.Text
