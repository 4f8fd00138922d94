import Curly.Text.Quoted
import Curly.Tree.Basic

/-!
# Outlines

The full contents of a program, one field to a line, for a reader who wants to see every part of
the tree. An outline is a list of lines; `group` sets outlines between an opening and a closing
line, one level in and each with a comma after it.
-/

namespace Curly

/-- The lines of an outline. -/
abbrev Outline := List String

namespace Outline

/-- One line. -/
def atom (text : String) : Outline := [text]

/-- A number. -/
def number (n : Nat) : Outline := atom (toString n)

/-- A quoted text. -/
def quoted (s : String) : Outline := atom (Text.quoted s)

/-- The outline with `text` before its first line. -/
def after (text : String) : Outline → Outline
  | [] => [text]
  | line :: lines => (text ++ line) :: lines

/-- The outline with a comma after its last line. -/
def comma (o : Outline) : Outline := o.dropLast ++ o.getLast?.toList.map (· ++ ",")

/-- Outlines between an opening and a closing text, which stand on one line if there are
none. -/
def group (opening closing : String) (parts : List Outline) : Outline :=
  if parts.isEmpty then [opening ++ closing]
  else opening :: parts.flatMap (fun part => part.comma.map ("    " ++ ·)) ++ [closing]

/-- A record with named fields. -/
def record (name : String) (fields : List (String × Outline)) : Outline :=
  group (name ++ " \x7b") "\x7d" (fields.map fun (field, o) => o.after (field ++ ": "))

/-- A name and the one thing it holds. -/
def tagged (name : String) (content : Outline) : Outline := group (name ++ "(") ")" [content]

/-- A list. -/
def list (items : List Outline) : Outline := group "[" "]" items

/-- Something that may be missing. -/
def optional : Option Outline → Outline
  | none => atom "None"
  | some o => tagged "Some" o

/-- A truth value. -/
def truth (b : Bool) : Outline := atom (if b then "true" else "false")

/-- A position. -/
def ofPosition (p : Position) : Outline :=
  record "Position"
    [("line", number p.line), ("column", number p.column), ("offset", number p.offset)]

/-- A span. -/
def ofSpan (s : Span) : Outline :=
  record "Span" [("start", ofPosition s.start), ("end", ofPosition s.stop)]

/-- What an import takes. -/
def ofIncludes : Includes → Outline
  | .everything => atom "Everything"
  | .names ns => tagged "Names" (list (ns.map quoted))

/-- A `use` declaration. -/
def ofUse (d : UseDecl) : Outline :=
  record "Import"
    [("specifier", quoted d.specifier), ("includes", optional (d.includes.map ofIncludes)),
      ("span", ofSpan d.span)]

/-- An enumeration's value. -/
def ofValue (v : EnumValue) : Outline :=
  record "EnumValue" [("name", quoted v.name), ("span", ofSpan v.span)]

/-- An enumeration. -/
def ofEnum (d : EnumDecl) : Outline :=
  record "EnumDecl"
    [("name", quoted d.name), ("values", list (d.values.map ofValue)), ("span", ofSpan d.span)]

/-- A parameter. -/
def ofParam (p : Param) : Outline :=
  record "Param" [("name", quoted p.name), ("ty", quoted p.type)]

/-- A function with the outlines of its body. -/
def ofFn (h : FnHead) (body : List Outline) (span : Span) : Outline :=
  record "FnDecl"
    [("name", quoted h.name), ("params", list (h.params.map ofParam)),
      ("return_type", optional (h.returns.map quoted)), ("is_arrow", truth h.arrow),
      ("body", list body), ("span", ofSpan span)]

mutual

/-- A node. -/
def ofNode : Node → Outline
  | .comment text span =>
    tagged "Comment" (record "Comment" [("text", quoted text), ("span", ofSpan span)])
  | .newline span => tagged "Newline" (ofSpan span)
  | .spacing span => tagged "Spacing" (ofSpan span)
  | .use_ d => tagged "Import" (ofUse d)
  | .enum d => tagged "Enum" (ofEnum d)
  | .fn head body span => tagged "Fn" (ofFn head (ofNodes body) span)

/-- The nodes of a list. -/
def ofNodes : List Node → List Outline
  | [] => []
  | n :: ns => ofNode n :: ofNodes ns

end

/-- A program. -/
def ofProgram (p : Program) : Outline :=
  record "Program" [("source", quoted p.source), ("children", list (ofNodes p.children))]

/-- The lines below each other. -/
def text (o : Outline) : String := "\n".intercalate o

end Outline

end Curly
