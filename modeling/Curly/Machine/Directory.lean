import Curly.Host.File

/-!
# Directories

A tree of files, given by the path of each file and its bytes. A directory is there if some file
is in it. The parts of a path stand between slashes and are followed one after the other, each
from a directory: an empty part means nothing, a dot stays, two dots lead back. What lies above
the tree are directories of which nothing is known but that they are there.
-/

namespace Curly

/-- Files by the parts of their paths. Two dots in front lead above the tree. -/
structure Directory where
  files : List (List String × ByteArray)

namespace Directory

/-- What stands at a path. -/
inductive Found
  | file (bytes : ByteArray)
  | directory
  | nothing

/-- Whether a path leads above the tree and stays there. -/
def isAbove (parts : List String) : Bool := parts.all (· == "..")

/-- What stands at the path with these parts. -/
def find (d : Directory) (parts : List String) : Found :=
  match d.files.lookup parts with
  | some bytes => .file bytes
  | none =>
    if isAbove parts || d.files.any fun f => parts.isPrefixOf f.1 then .directory else .nothing

/-! ## Following a path -/

/-- The parts of a path that mean something. -/
def parts (path : String) : List String :=
  ((Text.pieces '/' path.toList).map String.ofList).filter fun part => !part.isEmpty

/-- Whether a path ends in a slash and so can only be that of a directory. -/
def endsInSlash (path : String) : Bool := path.toList.getLast? == some '/'

/-- Where a part leads from the directory `here`. -/
def step (here : List String) (part : String) : Except FileError (List String) :=
  if part = "." then .ok here
  else if part = ".." then .ok (if isAbove here then here ++ [part] else here.dropLast)
  else if 255 < part.utf8ByteSize then .error .nameTooLong
  else .ok (here ++ [part])

/-- Follows parts from `here`: the parts of what they lead to, which itself need not be there. -/
def walk (d : Directory) (here : List String) : List String → Except FileError (List String)
  | [] => .ok here
  | part :: rest =>
    match d.find here with
    | .directory => step here part >>= fun there => d.walk there rest
    | .file _ => .error .notDirectory
    | .nothing => .error .notFound

/-- The parts of what these parts of a path lead to. A path with a slash in front starts above
the tree. -/
def resolve (d : Directory) (path : String) (parts : List String) :
    Except FileError (List String) :=
  if path.toList.contains '\x00' then .error .badName
  else if path.isEmpty then .error .notFound
  else if 4096 ≤ path.utf8ByteSize then .error .nameTooLong
  else d.walk (if path.toList.head? = some '/' then [".."] else []) parts

/-! ## Reading and writing -/

/-- The bytes of the file at a path. -/
def read (d : Directory) (path : String) : Except FileError ByteArray := do
  match d.find (← d.resolve path (parts path)) with
  | .file bytes => if endsInSlash path then throw .notDirectory else return bytes
  | .directory => throw .isDirectory
  | .nothing => throw .notFound

/-- Whether there is anything at a path. -/
def contains (d : Directory) (path : String) : Bool :=
  match d.resolve path (parts path) with
  | .error _ => false
  | .ok there =>
    match d.find there with
    | .file _ => !endsInSlash path
    | .directory => true
    | .nothing => false

/-- Where the bytes for a path would go. With a slash at its end it can only name a directory,
whatever stands there, and this is then the one around it. -/
def target (d : Directory) (path : String) : Except FileError (List String) :=
  d.resolve path (if endsInSlash path then (parts path).dropLast ++ ["."] else parts path)

/-- The directory with these bytes in the file at a path, which is made if it is not there. -/
def write (d : Directory) (path : String) (bytes : ByteArray) : Except FileError Directory := do
  let there ← d.target path
  match d.find there with
  | .file _ => return ⟨d.files.map fun f => if f.1 = there then (there, bytes) else f⟩
  | .directory => throw .isDirectory
  | .nothing => return ⟨d.files ++ [(there, bytes)]⟩

/-- The directory of these files. -/
def ofFiles (files : List (String × ByteArray)) : Directory :=
  ⟨files.map fun (path, bytes) => ((parts path).filter (· != "."), bytes)⟩

end Directory

end Curly
