import Curly.Service.Toml.Text

/-!
# Numbers and dates of a settings file

Integers are read exactly and have to fit into 64 bits. Of floats and dates only the form is
checked, and of floats that they are not too large.
-/

namespace Curly.Toml

/-! ## Digits -/

/-- Digits with single underscores between them, without the underscores. It fails if there is no
digit, or none after an underscore. -/
def digitRun (isDigit : Char → Bool) : Reader (List Char)
  | c :: cs => if isDigit c then more (cs.length + 1) [c] cs else none
  | [] => none
where
  /-- The digits after the first. -/
  more : Nat → List Char → Reader (List Char)
    | 0, acc, cs => some (acc.reverse, cs)
    | fuel + 1, acc, cs =>
      match cs with
      | '_' :: d :: rest => if isDigit d then more fuel (d :: acc) rest else none
      | ['_'] => none
      | d :: rest => if isDigit d then more fuel (d :: acc) rest else some (acc.reverse, cs)
      | [] => some (acc.reverse, [])

/-- The number that digits to a base stand for. -/
def digitsValue (base : Nat) (digits : List Char) : Nat :=
  digits.foldl (fun acc d => base * acc + (hexValue? d).getD 0) 0

/-- A sign, if there is one: whether it is a minus. -/
def sign : List Char → Bool × List Char
  | '-' :: cs => (true, cs)
  | '+' :: cs => (false, cs)
  | cs => (false, cs)

/-- A decimal number with an optional sign and without leading zeros: whether it is negative, and
its digits. -/
def decimal : Reader (Bool × List Char) := fun cs => do
  let (negative, cs) := sign cs
  match cs with
  | '0' :: rest => return ((negative, ['0']), rest)
  | cs =>
    let (digits, rest) ← digitRun Char.isDigit cs
    return ((negative, digits), rest)

/-! ## Integers -/

/-- Whether the number fits into 64 bits with a sign. -/
def fits (n : Int) : Bool := -9223372036854775808 ≤ n && n ≤ 9223372036854775807

/-- An integer: decimal with an optional sign, or to the base that its first two characters
name. -/
def integer : Reader Int := fun cs => do
  let (n, rest) ←
    match cs with
    | '0' :: 'x' :: cs => based 16 (fun c => (hexValue? c).isSome) cs
    | '0' :: 'o' :: cs => based 8 (fun c => '0' ≤ c && c ≤ '7') cs
    | '0' :: 'b' :: cs => based 2 (fun c => c == '0' || c == '1') cs
    | cs => do
      let ((negative, digits), rest) ← decimal cs
      let n : Int := digitsValue 10 digits
      pure (if negative then -n else n, rest)
  if fits n then return (n, rest) else none
where
  /-- Digits to a base. -/
  based (base : Nat) (isDigit : Char → Bool) (cs : List Char) : Option (Int × List Char) := do
    let (digits, rest) ← digitRun isDigit cs
    return (digitsValue base digits, rest)

/-! ## Floats -/

/-- Whether `m` times ten to the power `e` is rounded to infinity: it is not below the middle
between the largest float and the next power of two. -/
def isTooLarge (m : Nat) (e : Int) : Bool :=
  let size : Int := (Nat.toDigits 10 m).length + e
  if m = 0 || size < 300 then false
  else if 320 < size then true
  else
    let limit := Nat.pow 2 1024 - Nat.pow 2 970
    if 0 ≤ e then limit ≤ m * Nat.pow 10 e.toNat else limit * Nat.pow 10 (-e).toNat ≤ m

/-- The digits after a dot. -/
def fraction : Reader (List Char)
  | '.' :: cs => digitRun Char.isDigit cs
  | _ => none

/-- The power of ten. -/
def exponent : Reader Int
  | c :: cs =>
    if c = 'e' ∨ c = 'E' then do
      let (negative, cs) := sign cs
      let (digits, cs) ← digitRun Char.isDigit cs
      let n : Int := digitsValue 10 digits
      return (if negative then -n else n, cs)
    else none
  | [] => none

/-- The word that stands for infinity or for no number at all. -/
def specialFloat : Reader Unit
  | 'i' :: 'n' :: 'f' :: cs => some ((), cs)
  | 'n' :: 'a' :: 'n' :: cs => some ((), cs)
  | _ => none

/-- A float: a decimal number with a fraction, a power of ten or both, or a special word. -/
def float : Reader Unit := fun cs =>
  match specialFloat (sign cs).2 with
  | some r => some r
  | none => do
    let ((negative, whole), rest) ← decimal cs
    let (part, power, rest) ←
      match rest with
      | '.' :: _ => do
        let (part, rest) ← fraction rest
        match rest with
        | 'e' :: _ | 'E' :: _ =>
          let (power, rest) ← exponent rest
          pure (part, power, rest)
        | _ => pure (part, 0, rest)
      | _ => do
        let (power, rest) ← exponent rest
        pure ([], power, rest)
    if !negative && isTooLarge (digitsValue 10 (whole ++ part)) (power - part.length) then none
    else return ((), rest)

/-! ## Dates and times -/

/-- Exactly `n` digits. -/
def fixedDigits (n : Nat) : Reader Nat := fun cs =>
  let digits := cs.take n
  if digits.length = n ∧ digits.all Char.isDigit then some (digitsValue 10 digits, cs.drop n)
  else none

/-- Exactly this character. -/
def exactly (c : Char) : Reader Unit
  | d :: cs => if d = c then some ((), cs) else none
  | [] => none

/-- Exactly `n` digits for a number between two bounds. -/
def bounded (n low high : Nat) : Reader Nat := fun cs => do
  let (v, cs) ← fixedDigits n cs
  if low ≤ v ∧ v ≤ high then return (v, cs) else none

/-- The days of a month. -/
def daysIn (year month : Nat) : Nat :=
  if month = 2 then
    if year % 4 = 0 ∧ (year % 100 ≠ 0 ∨ year % 400 = 0) then 29 else 28
  else if month = 4 ∨ month = 6 ∨ month = 9 ∨ month = 11 then 30
  else 31

/-- A date of the calendar. -/
def date : Reader Unit := fun cs => do
  let (year, cs) ← fixedDigits 4 cs
  let (_, cs) ← exactly '-' cs
  let (month, cs) ← bounded 2 1 12 cs
  let (_, cs) ← exactly '-' cs
  let (_, cs) ← bounded 2 1 (daysIn year month) cs
  return ((), cs)

/-- A time of day, down to seconds or parts of them. -/
def time : Reader Unit := fun cs => do
  let (_, cs) ← bounded 2 0 23 cs
  let (_, cs) ← exactly ':' cs
  let (_, cs) ← bounded 2 0 59 cs
  let (_, cs) ← exactly ':' cs
  let (_, cs) ← bounded 2 0 60 cs
  match cs with
  | '.' :: c :: rest => if c.isDigit then return ((), rest.dropWhile Char.isDigit) else none
  | ['.'] => none
  | cs => return ((), cs)

/-- The distance to universal time. -/
def offset : Reader Unit
  | 'Z' :: cs | 'z' :: cs => some ((), cs)
  | '+' :: cs | '-' :: cs => do
    let (_, cs) ← bounded 2 0 23 cs
    let (_, cs) ← exactly ':' cs
    let (_, cs) ← bounded 2 0 59 cs
    return ((), cs)
  | _ => none

/-- Whether the character may stand between a date and a time. -/
def isDateDelimiter (c : Char) : Bool := c == 'T' || c == 't' || c == ' '

/-- A date, a time, or both with an optional offset. -/
def dateTime : Reader Unit := fun cs =>
  match date cs with
  | none => time cs
  | some (_, afterDate) =>
    match afterDate with
    | [] => some ((), [])
    | c :: rest =>
      match if isDateDelimiter c then time rest else none with
      | none => some ((), afterDate)
      | some (_, afterTime) => (offset afterTime).or (some ((), afterTime))

end Curly.Toml
