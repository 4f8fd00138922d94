import Curly.Text.Combining
import Curly.Text.Hangul
import Curly.Text.Unprintable

/-!
# Quoted text

A text between double quotes in which every character can be seen: quotes and backslashes are
marked by a backslash, the common controls have a letter, and what cannot be drawn by itself is
given by its number.
-/

namespace Curly.Text

/-- The digits of a number to base sixteen. -/
def hexDigits (n : Nat) : List Char := Nat.toDigits 16 n

/-- A character given by its number. -/
def numbered (c : Char) : List Char := "\\u\x7b".toList ++ hexDigits c.toNat ++ ['\x7d']

/-- Whether the character cannot be seen where it stands: it has no glyph, or it is drawn onto the
character before it. -/
def isHidden (c : Char) : Bool :=
  isUnprintable c || isFiller c || isCombining c && !isSoundMark c

/-- How a character is written between double quotes. -/
def quoteChar (c : Char) : List Char :=
  if c = '\x00' then ['\\', '0']
  else if c = '\t' then ['\\', 't']
  else if c = '\r' then ['\\', 'r']
  else if c = '\n' then ['\\', 'n']
  else if c = '\\' then ['\\', '\\']
  else if c = '"' then ['\\', '"']
  else if isHidden c then numbered c
  else [c]

/-- The text between double quotes. -/
def quoted (s : String) : String :=
  String.ofList ('"' :: s.toList.flatMap quoteChar ++ ['"'])

end Curly.Text
