import Curly.Service.Toml.Number
import Curly.Service.Toml.Value

/-!
# Documents

A settings file is read line by line: entries of the table under the last header, and headers.
A document has no value of its own but the entries of its outermost table.
-/

namespace Curly.Toml

/-! ## Values -/

/-- Items with commas between them. -/
def separated {α : Type} (item : Reader α) : Nat → Reader (List α)
  | 0, _ => none
  | fuel + 1, cs => do
    let (a, cs) ← item cs
    match cs with
    | ',' :: rest =>
      match separated item fuel rest with
      | some (as, rest) => return (a :: as, rest)
      | none => return ([a], cs)
    | cs => return ([a], cs)

/-- The items of an array after its opening bracket. A comma may follow the last. -/
def arrayRest (value : Reader Value) : Reader Value := fun cs => do
  let item : Reader Value := fun cs => do
    let (v, cs) ← value (skipBlank cs)
    return (v, skipBlank cs)
  let (items, rest) :=
    match separated item cs.length cs with
    | some (items, ',' :: rest) => (items, rest)
    | some r => r
    | none => ([], cs)
  match skipBlank rest with
  | ']' :: rest => return (.array items, rest)
  | _ => none

/-- An entry of a table: its key and its value. -/
def entry (value : Reader Value) : Reader ((List String × String) × Value) := fun cs => do
  let (key, cs) ← key cs
  let (_, cs) ← exactly '=' cs
  let (v, cs) ← value (skipSpace cs)
  return ((key, v), skipSpace cs)

/-- The entries of an inline table after its opening brace. -/
def inlineRest (value : Reader Value) : Reader Value := fun cs => do
  let (given, rest) := (separated (entry value) cs.length cs).getD ([], cs)
  match skipSpace rest with
  | '\x7d' :: rest =>
    let entries ← given.foldlM (fun (es : Entries) ((path, key), v) => es.assign? path key v) []
    return (.table .inlined entries, rest)
  | _ => none

/-- A word with a fixed meaning. -/
def exactWord (word : String) (v : Value) : Reader Value := fun cs =>
  if word.toList.isPrefixOf cs then some (v, cs.drop word.length) else none

/-- A value that begins with a digit or a sign. -/
def numeric : Reader Value := fun cs =>
  match dateTime cs, float cs with
  | some (_, rest), _ => some (.dateTime, rest)
  | none, some (_, rest) => some (.float, rest)
  | none, none => (integer cs).map fun (n, rest) => (.integer n, rest)

/-- A value in which arrays and inline tables stand in each other at most `depth` times. -/
def value : Nat → Reader Value
  | depth, cs =>
    match cs with
    | '"' :: _ | '\'' :: _ => (string cs).map fun (s, rest) => (.string s, rest)
    | '[' :: rest =>
      match depth with
      | 0 => none
      | depth + 1 => arrayRest (value depth) rest
    | '\x7b' :: rest =>
      match depth with
      | 0 => none
      | depth + 1 => inlineRest (value depth) rest
    | 't' :: _ => exactWord "true" (.boolean true) cs
    | 'f' :: _ => exactWord "false" (.boolean false) cs
    | 'i' :: _ | 'n' :: _ => (specialFloat cs).map fun (_, rest) => (.float, rest)
    | _ => numeric cs

/-! ## Lines -/

/-- The table that entries are added to: where it belongs, whether it is one of repeated tables,
and its entries so far. -/
structure OpenTable where
  path : List String
  name : String
  repeated : Bool
  entries : Entries

/-- A document under construction: the entries before the first header until there is one, and
then the table under the last header. -/
structure Draft where
  root : Entries
  current : Option OpenTable

namespace Draft

/-- Adds the table that is open to the document. -/
def close (d : Draft) : Option Entries :=
  match d.current with
  | none => some d.root
  | some t =>
    let table := Value.table .header t.entries
    Entries.change? .implied (fun _ es =>
      if t.repeated then
        match es.get? t.name with
        | none => some (es.set t.name (.tables [table]))
        | some (.tables items) => some (es.set t.name (.tables (items ++ [table])))
        | some _ => none
      else es.insertNew? t.name table) t.path d.root

/-- Adds an entry to the table that is open. -/
def assign (d : Draft) (key : List String × String) (v : Value) : Option Draft :=
  match d.current with
  | none => do return { d with root := ← d.root.assign? key.1 key.2 v }
  | some t => do
    return { d with current := some { t with entries := ← t.entries.assign? key.1 key.2 v } }

/-- Opens the table of a header. A table that is only implied so far is taken over with its
entries; any other of that name is in the way. -/
def openTable (d : Draft) (path : List String) (name : String) : Option Draft := do
  let (entries, root) ← Entries.visit? .implied (fun _ es =>
    match es.get? name with
    | none => some ([], es)
    | some (.table .implied inner) => some (inner, es.erase name)
    | some _ => none) path .header (← d.close)
  return ⟨root, some ⟨path, name, false, entries⟩⟩

/-- Opens one more table under a repeated header. -/
def openRepeated (d : Draft) (path : List String) (name : String) : Option Draft := do
  let root ← Entries.change? .implied (fun _ es =>
    match es.get? name with
    | none | some (.tables _) => some es
    | some _ => none) path (← d.close)
  return ⟨root, some ⟨path, name, true, []⟩⟩

end Draft

/-- The header at the front of a text, which begins with a bracket, applied to a document. -/
def header (d : Draft) : List Char → Option (Draft × List Char)
  | '[' :: '[' :: cs => do
    let ((path, name), cs) ← key cs
    let (_, cs) ← exactly ']' cs
    let (_, cs) ← exactly ']' cs
    return (← d.openRepeated path name, cs)
  | '[' :: cs => do
    let ((path, name), cs) ← key cs
    let (_, cs) ← exactly ']' cs
    return (← d.openTable path name, cs)
  | _ => none

/-- The line at the front of a text that is neither empty nor a comment, applied to a document,
and the text after it. -/
def line (d : Draft) (cs : List Char) : Option (Draft × List Char) := do
  let (d, cs) ←
    match cs with
    | '[' :: _ => header d cs
    | _ => do
      let ((key, v), cs) ← entry (value (depthLimit - 1)) cs
      pure (← d.assign key v, cs)
  return (d, ← endLine? cs)

/-- All lines of a text, of which there are less than `fuel`. -/
def allLines : Nat → Draft → List Char → Option Entries
  | 0, _, _ => none
  | fuel + 1, d, cs =>
    match skipSpace cs with
    | [] => d.close
    | c :: cs =>
      if c = '#' ∨ c = '\n' ∨ c = '\r' then do allLines fuel d (← endLine? (c :: cs))
      else do
        let (d, cs) ← line d (c :: cs)
        allLines fuel d cs

/-- The text without the mark that may tell its encoding. -/
def dropByteOrderMark : List Char → List Char
  | '\uFEFF' :: cs => cs
  | cs => cs

/-- The entries of a document, if the text is one. -/
def parse? (text : String) : Option Entries :=
  let cs := dropByteOrderMark text.toList
  allLines (cs.length + 1) ⟨[], none⟩ cs

end Curly.Toml
