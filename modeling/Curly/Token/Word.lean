/-!
# Reserved words

Keywords and the names of the built-in types, each with its spelling. A word is a keyword if one
is spelled so, else a built-in type, else a name.
-/

namespace Curly

/-- The reserved words of the language. -/
inductive Keyword
  | use_ | let_ | mut_ | fn | true_ | false_ | nil | defer | class_ | self | struct | enum | union
  | if_ | elif | else_ | match_ | for_ | return_ | typeof | del
  deriving DecidableEq, Inhabited

namespace Keyword

/-- All keywords. -/
def all : List Keyword :=
  [use_, let_, mut_, fn, true_, false_, nil, defer, class_, self, struct, enum, union,
    if_, elif, else_, match_, for_, return_, typeof, del]

/-- How the keyword is spelled. -/
def spelling : Keyword → String
  | use_ => "use"
  | let_ => "let"
  | mut_ => "mut"
  | fn => "fn"
  | true_ => "true"
  | false_ => "false"
  | nil => "nil"
  | defer => "defer"
  | class_ => "class"
  | self => "self"
  | struct => "struct"
  | enum => "enum"
  | union => "union"
  | if_ => "if"
  | elif => "elif"
  | else_ => "else"
  | match_ => "match"
  | for_ => "for"
  | return_ => "return"
  | typeof => "typeof"
  | del => "del"

/-- The keyword that is spelled so. -/
def ofWord? (word : String) : Option Keyword := all.find? (·.spelling == word)

end Keyword

/-- The types that need no declaration. -/
inductive BuiltinType
  | str | i8 | i16 | i32 | i64 | f32 | f64 | rune
  deriving DecidableEq, Inhabited

namespace BuiltinType

/-- All built-in types. -/
def all : List BuiltinType := [str, i8, i16, i32, i64, f32, f64, rune]

/-- How the type's name is spelled. -/
def spelling : BuiltinType → String
  | str => "str"
  | i8 => "i8"
  | i16 => "i16"
  | i32 => "i32"
  | i64 => "i64"
  | f32 => "f32"
  | f64 => "f64"
  | rune => "rune"

/-- The built-in type that is spelled so. -/
def ofWord? (word : String) : Option BuiltinType := all.find? (·.spelling == word)

end BuiltinType

end Curly
