import Curly.Text.Line

/-!
# Files

What can go wrong with a file, and the texts and lines of its bytes.
-/

namespace Curly

/-- Why a file cannot be read or written. -/
inductive FileError
  | notFound
  | notDirectory
  | isDirectory
  | nameTooLong
  | badName
  | notText
  /-- Anything else, as the system words it. -/
  | other (message : String)
  deriving DecidableEq

/-- The message for whoever named the file. -/
def FileError.message : FileError → String
  | notFound => "No such file or directory (os error 2)"
  | notDirectory => "Not a directory (os error 20)"
  | isDirectory => "Is a directory (os error 21)"
  | nameTooLong => "File name too long (os error 36)"
  | badName => "file name contained an unexpected NUL byte"
  | notText => "stream did not contain valid UTF-8"
  | other message => message

namespace Text

/-- The text that the bytes of a file stand for. -/
def ofBytes (bytes : ByteArray) : Except FileError String :=
  match String.fromUTF8? bytes with
  | some s => .ok s
  | none => .error .notText

/-- The lines of a file, up to the first that is no text, and the error it makes. -/
def byteLines (bytes : ByteArray) : List String × Option FileError :=
  collect (linesBy 10 13 bytes.toList)
where
  /-- The texts of the lines up to the first that is none. -/
  collect : List (List UInt8) → List String × Option FileError
    | [] => ([], none)
    | line :: lines =>
      match ofBytes ⟨line.toArray⟩ with
      | .error e => ([], some e)
      | .ok s => let (rest, e) := collect lines; (s :: rest, e)

end Text

end Curly
