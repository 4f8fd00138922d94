/-!
# Blank characters

The characters that count as white space in running text, and what is left of a text when they
are taken off its ends.
-/

namespace Curly.Text

/-- Whether `c` is white space: the controls from tab to carriage return, the space, the
next-line control and the separators of the space, line and paragraph kinds. -/
def isBlank (c : Char) : Bool :=
  let n := c.toNat
  (0x09 ≤ n && n ≤ 0x0D) || n == 0x20 || n == 0x85 || n == 0xA0 || n == 0x1680 ||
    (0x2000 ≤ n && n ≤ 0x200A) || n == 0x2028 || n == 0x2029 || n == 0x202F || n == 0x205F ||
    n == 0x3000

/-- The text without the blanks it starts with. -/
def trimStart (cs : List Char) : List Char := cs.dropWhile isBlank

/-- The text without the blanks it ends in. -/
def trimEnd (cs : List Char) : List Char := (cs.reverse.dropWhile isBlank).reverse

/-- The text without the blanks at either end. -/
def trim (cs : List Char) : List Char := trimEnd (trimStart cs)

/-- Whether a text has nothing but blanks. -/
def allBlank (cs : List Char) : Bool := cs.all isBlank

end Curly.Text
