import Curly.Tree.Layout
import Mathlib.Data.List.Basic

/-!
# Printing piece by piece

A printer keeps the text written so far, how many levels deep it is, and whether it is at the start
of a line, where indentation is written before the next piece. Declarations are written by such a
printer at no depth, entries one level further in, and the lines of a body, which another printer
has written, one level further in than there. What it has written in the end is the text of the
declarations (`Printer.code_writeNodes`).
-/

namespace Curly.Layout

/-- A text that is being written. -/
structure Printer where
  code : List Char
  depth : Nat
  atLineStart : Bool

namespace Printer

/-- Nothing written. -/
def empty : Printer := ⟨[], 0, true⟩

/-- One more piece, with indentation before the first piece on a line. -/
def push (unit : List Char) (p : Printer) (piece : List Char) : Printer :=
  if piece.isEmpty then p
  else
    let indentation := if p.atLineStart then (List.replicate p.depth unit).flatten else []
    { p with code := p.code ++ indentation ++ piece, atLineStart := false }

/-- The end of a line. -/
def newline (p : Printer) : Printer := { p with code := p.code ++ ['\n'], atLineStart := true }

/-- The end of a declaration and an empty line after it. -/
def blankLine (p : Printer) : Printer := p.newline.newline

/-- One level further in. -/
def indent (p : Printer) : Printer := { p with depth := p.depth + 1 }

/-- One level less far in. -/
def dedent (p : Printer) : Printer := { p with depth := p.depth - 1 }

/-- Each of the items on a line of its own. -/
def lines (unit : List Char) (p : Printer) (items : List (List Char)) : Printer :=
  items.foldl (fun p item => (p.push unit item).newline) p

/-- A line end and then each of the items on a line of its own, one level further in; nothing
for no items. -/
def indentedLines (unit : List Char) (p : Printer) (items : List (List Char)) : Printer :=
  if items.isEmpty then p else (p.newline.indent.lines unit items).dedent

/-- Writes a `use` declaration. -/
def writeUse (unit : List Char) (p : Printer) (d : UseDecl) : Printer :=
  let p := ((p.push unit "use '".toList).push unit d.specifier.toList).push unit "'".toList
  match d.includes with
  | none => p
  | some .everything => p.push unit ":\x7b*\x7d".toList
  | some (.names ns) =>
    ((p.push unit ":\x7b".toList).indentedLines unit (ns.map String.toList)).push unit "\x7d".toList

/-- Writes an enumeration. -/
def writeEnum (unit : List Char) (p : Printer) (d : EnumDecl) : Printer :=
  let p := ((p.push unit "enum ".toList).push unit d.name.toList).push unit " \x7b".toList
  (p.indentedLines unit (d.values.map (·.name.toList))).push unit "\x7d".toList

/-- Writes a function up to its body. -/
def writeHead (unit : List Char) (p : Printer) (h : FnHead) : Printer :=
  let p := ((p.push unit "fn ".toList).push unit h.name.toList).push unit "(".toList
  let p := (p.indentedLines unit (h.params.map paramText)).push unit ") ".toList
  match h.returns with
  | none => p
  | some type => (p.push unit type.toList).push unit " ".toList

/-- Writes a body of `count` declarations that another printer has written as `text`. -/
def writeBody (unit : List Char) (p : Printer) (count : Nat) (text : List Char) : Printer :=
  match count with
  | 0 => p.push unit "\x7b\x7d".toList
  | 1 => (p.push unit "-> ".toList).push unit (Text.trimEnd text)
  | _ =>
    let full := (Text.lines text).filter fun line => !line.isEmpty
    ((p.push unit "\x7b".toList).newline.indent.lines unit full).dedent.push unit "\x7d".toList

mutual

/-- Writes a declaration. The body of a function is written apart, by a new printer. -/
def writeNode (unit : List Char) (p : Printer) : Node → Printer
  | .comment .. | .newline _ | .spacing _ => p
  | .use_ d => p.writeUse unit d
  | .enum d => p.writeEnum unit d
  | .fn head body _ =>
    (p.writeHead unit head).writeBody unit (declarations body).length
      (writeNodes unit empty body).code

/-- Writes declarations one after the other and passes over trivia. -/
def writeNodes (unit : List Char) (p : Printer) : List Node → Printer
  | [] => p
  | n :: ns =>
    if n.isTrivia then writeNodes unit p ns
    else writeNodes unit (writeNode unit p n).blankLine ns

end

/-! ## What is written -/

/-- The printer has written this text and is at no depth. -/
structure Holds (p : Printer) (text : List Char) : Prop where
  code : p.code = text
  depth : p.depth = 0

variable {unit text : List Char} {p : Printer}

theorem holds_empty : empty.Holds [] := ⟨rfl, rfl⟩

/-- One level in, each item comes after a unit, if there is anything in it. -/
theorem lines_eq (hdepth : p.depth = 1) (hstart : p.atLineStart = true)
    (items : List (List Char)) :
    p.lines unit items = { p with code := p.code ++ items.flatMap (entryLine unit) } := by
  induction items generalizing p with
  | nil => simp [lines]
  | cons item items ih =>
    have hitem : (p.push unit item).newline =
        { p with code := p.code ++ entryLine unit item } := by
      rw [push, entryLine]
      split
      · simp [newline, hstart]
      · simp [newline, hstart, hdepth]
    have hlater := ih (p := (p.push unit item).newline) (by rw [hitem]; exact hdepth)
      (by rw [hitem]; exact hstart)
    rw [lines, List.foldl_cons, ← lines, hlater, hitem, List.flatMap_cons]
    simp

namespace Holds

variable (h : p.Holds text)
include h

/-- At no depth a piece is written as it is. -/
theorem push (unit piece : List Char) : (p.push unit piece).Holds (text ++ piece) := by
  rw [Printer.push]
  split
  next hnil =>
    rw [List.isEmpty_iff.1 hnil, List.append_nil]
    exact h
  next => exact ⟨by simp [h.code, h.depth], h.depth⟩

theorem newline : p.newline.Holds (text ++ ['\n']) := ⟨by rw [Printer.newline, h.code], h.depth⟩

theorem blankLine : p.blankLine.Holds (text ++ "\n\n".toList) := by
  have hlines := h.newline.newline
  rwa [List.append_assoc] at hlines

/-- A line end and items one level further in. -/
theorem lines (unit : List Char) (items : List (List Char)) :
    (p.newline.indent.lines unit items).dedent.Holds
      (text ++ '\n' :: items.flatMap (entryLine unit)) := by
  have hdepth : p.newline.indent.depth = 1 := congrArg (· + 1) h.depth
  rw [lines_eq hdepth rfl]
  constructor
  · show p.code ++ ['\n'] ++ _ = _
    rw [h.code, List.append_assoc, List.singleton_append]
  · exact congrArg (· - 1) hdepth

theorem indentedLines (unit : List Char) (items : List (List Char)) :
    (p.indentedLines unit items).Holds (text ++ entryLines unit items) := by
  rw [Printer.indentedLines, entryLines]
  split
  · rw [List.append_nil]
    exact h
  · exact h.lines unit items

/-! ### Declarations -/

theorem writeUse (d : UseDecl) : (p.writeUse unit d).Holds (text ++ useText unit d) := by
  have hpath := ((h.push unit "use '".toList).push unit d.specifier.toList).push unit "'".toList
  unfold Printer.writeUse useText
  simp only [← List.append_assoc]
  cases d.includes with
  | none =>
    rw [List.append_nil]
    exact hpath
  | some includes =>
    cases includes with
    | everything => exact hpath.push unit ":\x7b*\x7d".toList
    | names ns =>
      rw [← List.append_assoc, ← List.append_assoc]
      exact ((hpath.push unit ":\x7b".toList).indentedLines unit (ns.map String.toList)).push unit
        "\x7d".toList

theorem writeEnum (d : EnumDecl) : (p.writeEnum unit d).Holds (text ++ enumText unit d) := by
  have hname := ((h.push unit "enum ".toList).push unit d.name.toList).push unit " \x7b".toList
  have hvalues := (hname.indentedLines unit (d.values.map (·.name.toList))).push unit "\x7d".toList
  unfold Printer.writeEnum enumText
  simpa only [List.append_assoc] using hvalues

theorem writeHead (head : FnHead) :
    (p.writeHead unit head).Holds (text ++ headText unit head) := by
  have hname := ((h.push unit "fn ".toList).push unit head.name.toList).push unit "(".toList
  have hparams := (hname.indentedLines unit (head.params.map paramText)).push unit ") ".toList
  unfold Printer.writeHead headText
  simp only [← List.append_assoc]
  cases head.returns with
  | none =>
    rw [List.append_nil]
    exact hparams
  | some type =>
    rw [← List.append_assoc]
    exact (hparams.push unit type.toList).push unit " ".toList

theorem writeBody (count : Nat) (body : List Char) :
    (p.writeBody unit count body).Holds (text ++ bodyText unit count body) := by
  match count with
  | 0 => exact h.push unit _
  | 1 =>
    simpa only [Printer.writeBody, bodyText, List.append_assoc] using
      (h.push unit "-> ".toList).push unit (Text.trimEnd body)
  | count + 2 =>
    let full := (Text.lines body).filter fun line => !line.isEmpty
    have hfull : full.flatMap (entryLine unit) = Layout.indent unit body := by
      refine List.flatMap_congr fun line hline => ?_
      have hline' := (List.mem_filter.1 hline).2
      rw [Bool.not_eq_true'] at hline'
      rw [entryLine, hline', if_neg Bool.false_ne_true]
    have hlines := ((h.push unit "\x7b".toList).lines unit full).push unit "\x7d".toList
    rw [hfull] at hlines
    have hopening : "\x7b\n".toList = "\x7b".toList ++ ['\n'] := by decide
    show Holds _ (text ++ ("\x7b\n".toList ++ Layout.indent unit body ++ "\x7d".toList))
    rw [hopening]
    simpa only [Printer.writeBody, List.append_assoc, List.cons_append, List.nil_append] using
      hlines

end Holds

mutual

theorem holds_writeNode (unit : List Char) : ∀ (n : Node) {p : Printer} {text : List Char},
    p.Holds text → (writeNode unit p n).Holds (text ++ nodeText unit n)
  | .comment .., _, _, h | .newline _, _, _, h | .spacing _, _, _, h => by
    rw [writeNode, nodeText, List.append_nil]
    exact h
  | .use_ d, _, _, h => by
    rw [writeNode, nodeText]
    exact h.writeUse d
  | .enum d, _, _, h => by
    rw [writeNode, nodeText]
    exact h.writeEnum d
  | .fn head body _, _, _, h => by
    have hbody := (holds_writeNodes unit body holds_empty).code
    rw [writeNode, nodeText, hbody, List.nil_append, ← List.append_assoc]
    exact (h.writeHead head).writeBody _ _

theorem holds_writeNodes (unit : List Char) : ∀ (ns : List Node) {p : Printer} {text : List Char},
    p.Holds text → (writeNodes unit p ns).Holds (text ++ nodesText unit ns)
  | [], _, _, h => by
    rw [writeNodes, nodesText, List.append_nil]
    exact h
  | n :: ns, _, _, h => by
    rw [writeNodes, nodesText]
    split
    · exact holds_writeNodes unit ns h
    · rw [← List.append_assoc, ← List.append_assoc]
      exact holds_writeNodes unit ns (holds_writeNode unit n h).blankLine

end

/-- **What is written in the end is the text of the declarations.** -/
theorem code_writeNodes (unit : List Char) (ns : List Node) :
    (writeNodes unit empty ns).code = nodesText unit ns :=
  (holds_writeNodes unit ns holds_empty).code

end Printer

end Curly.Layout
