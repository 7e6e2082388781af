import Std.Data.ExtTreeMap

/-
  Where files come from.

  A storage opens a file by its name and reads it to the end; on the way it may have
  looked in vain in other places. Files are kept in memory, or in a directory tree
  that is searched through several roots.

  An absolute path starts at the root of the tree and any other in the working
  directory. Every part of a path but the last has to be a directory; `.` stays in it
  and `..` leaves it, except that the root has nothing above it.

  Opening a directory succeeds and reading it fails, so a search through
  several roots ends at the first root where anything stands under the name.

  Correspondence:
    `StreamSource` ↔ `Storage`; what opening and reading to the end lead to ↔ `Opening`
    `MemorySource` ↔ `Memory`; its `open` ↔ `Memory.storage`
    `DirSource`    ↔ a `Disk` and roots; its `open` ↔ `Disk.storage`
-/

namespace Phrasebook

/-! ## Storages -/

inductive IoFault where
  | notFound
  | notDirectory
  | isDirectory
  | notText
  | other (text : String)
  deriving DecidableEq, Repr

def IoFault.message : IoFault → String
  | .notFound => "No such file or directory (os error 2)"
  | .notDirectory => "Not a directory (os error 20)"
  | .isDirectory => "Is a directory (os error 21)"
  | .notText => "stream did not contain valid UTF-8"
  | .other text => text

inductive Reading where
  | absent
  | failed (fault : IoFault)
  | read (bytes : List UInt8)
  deriving DecidableEq, Repr

structure Miss where
  path : String
  fault : IoFault
  deriving DecidableEq, Repr

/-- The paths tried in vain, in order, and what was read in the end. -/
structure Opening where
  misses : List Miss
  reading : Reading
  deriving DecidableEq, Repr

/-- What opening a file by its name leads to. -/
abbrev Storage := String → Opening

def Storage.empty : Storage := fun _ => ⟨[], .absent⟩

/-- A file kept in memory, or one that opens and whose reading fails. -/
inductive Cell where
  | data (bytes : List UInt8)
  | failing (text : String)
  deriving DecidableEq, Repr

abbrev Memory := Std.ExtTreeMap String Cell

namespace Memory

/-- The names of the files that can be read. -/
def names (m : Memory) : List String :=
  m.toList.filterMap fun
    | (name, .data _) => some name
    | (_, .failing _) => none

/-- The storage that knows the files of a memory and looks nowhere else. -/
def storage (m : Memory) : Storage := fun file =>
  match m[file]? with
  | none => ⟨[], .absent⟩
  | some (.data bytes) => ⟨[], .read bytes⟩
  | some (.failing text) => ⟨[], .failed (.other text)⟩

end Memory

/-! ## Trees and disks -/

/-- A file, or a directory with its entries. -/
inductive Tree where
  | file (bytes : List UInt8)
  | directory (entries : List (String × Tree))
  deriving Repr

namespace Tree

def empty : Tree := .directory []

def child? (t : Tree) (name : String) : Option Tree :=
  match t with
  | .file _ => none
  | .directory entries => entries.lookup name

def find? (t : Tree) (names : List String) : Option Tree := names.foldlM child? t

/-- The entries with `t` under `name`, in place of what was there. -/
def setEntry (name : String) (t : Tree) (entries : List (String × Tree)) :
    List (String × Tree) :=
  if (entries.lookup name).isSome then
    entries.map fun e => if e.1 == name then (name, t) else e
  else entries ++ [(name, t)]

/-- The tree with `leaf` at the end of a row of names; directories on the way
are made. -/
def put (leaf : Tree) : List String → Tree → Tree
  | [], _ => leaf
  | name :: rest, t =>
    let entries := match t with
      | .directory entries => entries
      | .file _ => []
    .directory (setEntry name (put leaf rest ((entries.lookup name).getD empty)) entries)

/-- The tree with a directory at the end of a row of names, whatever was there
if it was a directory. -/
def makeDirectory (t : Tree) (names : List String) : Tree :=
  match t.find? names with
  | some (.directory _) => t
  | _ => put empty names t

/-- One part further from the directory at the end of a row of names. -/
def step (t : Tree) (names : List String) (part : String) : Except IoFault (List String) :=
  match t.find? names with
  | none => .error .notFound
  | some (.file _) => .error .notDirectory
  | some (.directory entries) =>
    if part = "." then .ok names
    else if part = ".." then .ok names.dropLast
    else if (entries.lookup part).isSome then .ok (names ++ [part])
    else .error .notFound

end Tree

namespace Pathname

def parts (path : String) : List String :=
  (path.toList.splitBy fun a b => a != '/' && b != '/').map String.ofList |>.filter (· ≠ "/")

/-- The parts of a path that do not stay where they are. -/
def names (path : String) : List String := (parts path).filter (· ≠ ".")

def isAbsolute (path : String) : Bool := path.toList.head? == some '/'

/-- Whether a path ends in a slash, so that it has to lead to a directory. -/
def endsInSlash (path : String) : Bool := path.toList.getLast? == some '/'

/-- A name below a root; an absolute name stands for itself. -/
def join (root name : String) : String :=
  if isAbsolute name then name
  else if root = "" ∨ endsInSlash root then root ++ name
  else root ++ "/" ++ name

end Pathname

/-- A tree from its root, and the names on the way from there to the working
directory. -/
structure Disk where
  tree : Tree
  here : List String
  deriving Repr

namespace Disk

/-- Nothing but the working directory. Its name is one that no path can have, so
that it is the only way into itself. -/
def empty : Disk := ⟨.directory [("", .empty)], [""]⟩

def start (d : Disk) (path : String) : List String :=
  if Pathname.isAbsolute path then [] else d.here

/-- The row of names that a path leads along, from the root. -/
def locate (d : Disk) (path : String) : Except IoFault (List String) :=
  if path = "" then .error .notFound
  else
    -- where it starts there has to be a directory
    let steps := "." :: Pathname.parts path ++ if Pathname.endsInSlash path then ["."] else []
    steps.foldlM d.tree.step (d.start path)

/-- What is read at a path, once it has been opened. -/
def readAt (d : Disk) (path : String) : Except IoFault Reading :=
  (d.locate path).map fun names =>
    match d.tree.find? names with
    | some (.file bytes) => .read bytes
    | _ => .failed .isDirectory

/-- The storage that looks for a file below each root in turn. -/
def storage (d : Disk) : (roots : List String) → Storage
  | [], _ => ⟨[], .absent⟩
  | root :: rest, name =>
    let path := Pathname.join root name
    match d.readAt path with
    | .ok reading => ⟨[], reading⟩
    | .error fault =>
      let later := d.storage rest name
      { later with misses := ⟨path, fault⟩ :: later.misses }

/-- The disk with a file at a path from the working directory, or with a
directory if the path ends in a slash. -/
def put (d : Disk) (path : String) (bytes : List UInt8) : Disk :=
  let names := d.here ++ Pathname.names path
  { d with tree :=
      if Pathname.endsInSlash path then d.tree.makeDirectory names
      else .put (.file bytes) names d.tree }

/-- A row of names from the working directory on, if it leads through there. -/
def fromHere? (d : Disk) (names : List String) : Option (List String) :=
  if d.here.isPrefixOf names then some (names.drop d.here.length) else none

end Disk

end Phrasebook
