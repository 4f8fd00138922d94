/-!
# Values of a settings file

A document is a table: names with their values, in the order in which they were first given.
How a table came about decides whether it may be added to later, so each table carries its
origin. Values that no setting asks for are kept by their kind only.
-/

namespace Curly.Toml

/-- How a table came about. -/
inductive Origin
  /-- It was given under a header of its own. -/
  | header
  /-- A header named a table inside it. -/
  | implied
  /-- A dotted key named an entry of it. -/
  | dotted
  /-- It was written between braces. -/
  | inlined
  deriving DecidableEq, Inhabited

/-- A table that has only been passed through on the way to another one is open to entries of
its own. -/
def Origin.isOpen : Origin → Bool
  | implied | dotted => true
  | header | inlined => false

/-- A value of a settings file. -/
inductive Value
  | string (s : String)
  | integer (n : Int)
  | float
  | boolean (b : Bool)
  | dateTime
  | array (items : List Value)
  | table (origin : Origin) (entries : List (String × Value))
  /-- The tables given under a repeated header, in their order. -/
  | tables (items : List Value)
  deriving Inhabited

/-- The entries of a table in their order. -/
abbrev Entries := List (String × Value)

namespace Entries

/-- The value under a name. -/
def get? (es : Entries) (key : String) : Option Value := List.lookup key es

/-- The entries with a value under a name: in the place of the one it had, else at the end. -/
def set (es : Entries) (key : String) (v : Value) : Entries :=
  if (es.get? key).isSome then es.map fun e => if e.1 == key then (key, v) else e
  else es ++ [(key, v)]

/-- The entries without a name. -/
def erase (es : Entries) (key : String) : Entries := es.filter fun e => e.1 != key

/-- The entries with a new one, whose name must not be taken. -/
def insertNew? (es : Entries) (key : String) (v : Value) : Option Entries :=
  if (es.get? key).isSome then none else some (es ++ [(key, v)])

/-- Looks at the table that a path leads to, from a table of this origin, and changes it. Tables
missing on the way are made with the origin `made`; of repeated tables the last one is meant. A
path of dotted keys does not lead through a table that was given as a whole. -/
def visit? {α : Type} (made : Origin) (f : Origin → Entries → Option (α × Entries)) :
    List String → Origin → Entries → Option (α × Entries)
  | [], origin, es => f origin es
  | key :: path, _, es =>
    match es.get? key with
    | none => do
      let (a, inner) ← visit? made f path made []
      return (a, es.set key (.table made inner))
    | some (.table origin inner) =>
      if origin = .inlined ∨ (made = .dotted ∧ !origin.isOpen) then none
      else do
        let (a, inner) ← visit? made f path origin inner
        return (a, es.set key (.table origin inner))
    | some (.tables items) =>
      match items.getLast? with
      | some (.table origin inner) => do
        let (a, inner) ← visit? made f path origin inner
        return (a, es.set key (.tables (items.dropLast ++ [.table origin inner])))
      | _ => none
    | some _ => none

/-- Changes the table that a path leads to from the outermost table. -/
def change? (made : Origin) (f : Origin → Entries → Option Entries) (path : List String)
    (es : Entries) : Option Entries :=
  (visit? made (fun origin es => (f origin es).map ((), ·)) path .header es).map (·.2)

/-- Gives the entry that a dotted key leads to. The table it is added to is one that dotted keys
have made, or this table if the key has no dots. -/
def assign? (es : Entries) (path : List String) (key : String) (v : Value) : Option Entries :=
  change? .dotted
    (fun origin es =>
      if (origin == .dotted) == path.isEmpty then none else es.insertNew? key v)
    path es

end Entries

end Curly.Toml
