/-!
# Characters, strings and keys of a settings file

A reader takes what it can from the front of a text and leaves the rest, or fails.
-/

namespace Curly.Toml

/-- Takes something from the front of a text. -/
abbrev Reader (α : Type) := List Char → Option (α × List Char)

/-! ## Blanks and comments -/

/-- Blanks within a line. -/
def isSpace (c : Char) : Bool := c == ' ' || c == '\t'

/-- The text after blanks within the line. -/
def skipSpace (cs : List Char) : List Char := cs.dropWhile isSpace

/-- Whether the character may stand in a comment or a literal string: no control but the tab. -/
def isPlain (c : Char) : Bool := c == '\t' || (0x20 ≤ c.toNat && c.toNat != 0x7F)

/-- The text after a line end. -/
def lineEnd? : List Char → Option (List Char)
  | '\n' :: cs => some cs
  | '\r' :: '\n' :: cs => some cs
  | _ => none

/-- The text after a comment, which does not include its line end. -/
def skipComment (cs : List Char) : List Char :=
  match cs with
  | '#' :: cs => cs.dropWhile isPlain
  | cs => cs

/-- The text after the blanks and the comment that may end a line, and after the line end, which
the end of the text stands for. -/
def endLine? (cs : List Char) : Option (List Char) :=
  match skipComment (skipSpace cs) with
  | [] => some []
  | cs => lineEnd? cs

/-- The text after any number of blanks, line ends and comments, of which at most `fuel` are
taken. -/
def skipLines : Nat → List Char → List Char
  | 0, cs => cs
  | fuel + 1, cs =>
    let cs := skipSpace cs
    match lineEnd? (skipComment cs) with
    | some cs => skipLines fuel cs
    | none => cs

/-- The text after all blanks, line ends and comments at its front. -/
def skipBlank (cs : List Char) : List Char := skipLines (cs.length + 1) cs

/-! ## Strings -/

/-- The value of a hexadecimal digit. -/
def hexValue? (c : Char) : Option Nat :=
  if c.isDigit then some (c.toNat - '0'.toNat)
  else if 'a' ≤ c ∧ c ≤ 'f' then some (c.toNat - 'a'.toNat + 10)
  else if 'A' ≤ c ∧ c ≤ 'F' then some (c.toNat - 'A'.toNat + 10)
  else none

/-- The character whose number is given by `n` hexadecimal digits. -/
def numberedChar (n : Nat) : Reader Char := fun cs => do
  let digits ← (cs.take n).mapM hexValue?
  if digits.length ≠ n then none
  let code := digits.foldl (fun acc d => 16 * acc + d) 0
  if code.isValidChar then return (Char.ofNat code, cs.drop n) else none

/-- The character that stands after a backslash. -/
def escaped : Reader Char
  | 'b' :: cs => some ('\x08', cs)
  | 't' :: cs => some ('\t', cs)
  | 'n' :: cs => some ('\n', cs)
  | 'f' :: cs => some ('\x0c', cs)
  | 'r' :: cs => some ('\r', cs)
  | '"' :: cs => some ('"', cs)
  | '\\' :: cs => some ('\\', cs)
  | 'u' :: cs => numberedChar 4 cs
  | 'U' :: cs => numberedChar 8 cs
  | _ => none

/-- The rest of a string between double quotes, and the text after it. -/
def basicRest : Nat → List Char → Reader String
  | 0, _, _ => none
  | _ + 1, acc, '"' :: cs => some (String.ofList acc.reverse, cs)
  | fuel + 1, acc, '\\' :: cs => do
    let (c, cs) ← escaped cs
    basicRest fuel (c :: acc) cs
  | fuel + 1, acc, c :: cs => if isPlain c then basicRest fuel (c :: acc) cs else none
  | _ + 1, _, [] => none

/-- The rest of a string between single quotes, and the text after it. -/
def literalRest (cs : List Char) : Option (String × List Char) :=
  let value := cs.takeWhile fun c => c != '\'' && isPlain c
  match cs.drop value.length with
  | '\'' :: rest => some (String.ofList value, rest)
  | _ => none

/-- The quotes at the front of a text. -/
def quoteRun (quote : Char) (cs : List Char) : Nat := (cs.takeWhile (· == quote)).length

/-- What the quotes at the front of a text mean inside a string between triple quotes: up to two
belong to the string, three or more end it, and up to two of those before the last three belong
to it. The number of quotes that belong to the string, and whether it ends. -/
def quotesInside (run : Nat) : Nat × Bool :=
  if run < 3 then (run, false) else (min (run - 3) 2, true)

/-- The rest of a string between triple double quotes, and the text after it. -/
def basicLinesRest : Nat → List Char → Reader String
  | 0, _, _ => none
  | fuel + 1, acc, cs =>
    match cs with
    | [] => none
    | '"' :: _ =>
      let (kept, ends) := quotesInside (quoteRun '"' cs)
      let acc := List.replicate kept '"' ++ acc
      if ends then some (String.ofList acc.reverse, cs.drop (kept + 3))
      else basicLinesRest fuel acc (cs.drop kept)
    | '\\' :: rest =>
      match lineEnd? (skipSpace rest) with
      | some rest =>
        let isGap (c : Char) : Bool := isSpace c || c == '\n'
        basicLinesRest fuel acc (dropGap isGap fuel rest)
      | none => do
        let (c, rest) ← escaped rest
        basicLinesRest fuel (c :: acc) rest
    | c :: rest =>
      match lineEnd? cs with
      | some rest => basicLinesRest fuel ('\n' :: acc) rest
      | none => if isPlain c then basicLinesRest fuel (c :: acc) rest else none
where
  /-- The text after blanks and line ends. -/
  dropGap (isGap : Char → Bool) : Nat → List Char → List Char
    | 0, cs => cs
    | fuel + 1, cs =>
      match cs with
      | '\r' :: '\n' :: cs => dropGap isGap fuel cs
      | c :: cs => if isGap c then dropGap isGap fuel cs else c :: cs
      | [] => []

/-- The rest of a string between triple single quotes, and the text after it. -/
def literalLinesRest : Nat → List Char → Reader String
  | 0, _, _ => none
  | fuel + 1, acc, cs =>
    match cs with
    | [] => none
    | '\'' :: _ =>
      let (kept, ends) := quotesInside (quoteRun '\'' cs)
      let acc := List.replicate kept '\'' ++ acc
      if ends then some (String.ofList acc.reverse, cs.drop (kept + 3))
      else literalLinesRest fuel acc (cs.drop kept)
    | c :: rest =>
      match lineEnd? cs with
      | some rest => literalLinesRest fuel ('\n' :: acc) rest
      | none => if isPlain c then literalLinesRest fuel (c :: acc) rest else none

/-- The text without the line end that may follow an opening triple quote. -/
def dropFirstLineEnd (cs : List Char) : List Char := (lineEnd? cs).getD cs

/-- A string of one line. -/
def lineString : Reader String
  | '"' :: cs => basicRest (cs.length + 1) [] cs
  | '\'' :: cs => literalRest cs
  | _ => none

/-- A string of either kind, over one line or several. -/
def string : Reader String
  | '"' :: '"' :: '"' :: cs => basicLinesRest (cs.length + 1) [] (dropFirstLineEnd cs)
  | '\'' :: '\'' :: '\'' :: cs => literalLinesRest (cs.length + 1) [] (dropFirstLineEnd cs)
  | cs => lineString cs

/-! ## Keys -/

/-- The characters of a key without quotes. -/
def isKeyChar (c : Char) : Bool := c.isAlphanum || c == '_' || c == '-'

/-- A key without dots, and the blanks around it. -/
def simpleKey : Reader String := fun cs => do
  let cs := skipSpace cs
  let (key, rest) ←
    match cs with
    | '"' :: _ | '\'' :: _ => lineString cs
    | _ =>
      let word := cs.takeWhile isKeyChar
      if word.isEmpty then none else some (String.ofList word, cs.drop word.length)
  return (key, skipSpace rest)

/-- The most parts that a dotted key may have, and one more than arrays and inline tables may
stand in each other. -/
def depthLimit : Nat := 80

/-- The parts of a dotted key after the first. -/
def moreKeys : Nat → List Char → List String × List Char
  | fuel + 1, '.' :: cs =>
    match simpleKey cs with
    | some (key, cs) => let (keys, cs) := moreKeys fuel cs; (key :: keys, cs)
    | none => ([], '.' :: cs)
  | _, cs => ([], cs)

/-- A dotted key: the parts that lead to its table, and the last. -/
def key : Reader (List String × String) := fun cs => do
  let (first, cs) ← simpleKey cs
  let (more, cs) := moreKeys cs.length cs
  let parts := first :: more
  if depthLimit ≤ parts.length then none
  return ((parts.dropLast, parts.getLastD first), cs)

end Curly.Toml
