import Phrasebook.Config
import Phrasebook.Library.Basic

/-
  Sessions: commands to a library over one set of files. The books read their
  files below their roots and the desks below theirs; in memory there is only
  one place for all of them.
-/

namespace Phrasebook

inductive Files where
  | memory (files : Memory)
  | tree (files : Disk)

namespace Files

/-- The files as a storage with given roots. -/
def storage (roots : List String) : Files → Storage
  | .memory files => files.storage
  | .tree files => files.storage roots

/-- Adds or replaces a file. In a tree reading never fails on its own account. -/
def put (name : String) (cell : Cell) : Files → Files
  | .memory files => .memory (files.insert name cell)
  | .tree files =>
    .tree (files.put name (match cell with
      | .data bytes => bytes
      | .failing _ => []))

/-- The files in memory that can be read. -/
def names : Files → List String
  | .memory files => files.names
  | .tree _ => []

end Files

structure Session where
  files : Files
  bookRoots : List String := []
  deskRoots : List String := []
  library : Library
  /-- The numbers that listeners got, in the order of their subscription. -/
  issued : List UInt64 := []

namespace Session

def bookStorage (s : Session) : Storage := s.files.storage s.bookRoots

def deskStorage (s : Session) : Storage := s.files.storage s.deskRoots

inductive Command where
  | put (name : String) (cell : Cell)
  | inMemory (name : String)
  | read (name : String)
  | act (place : Nat) (action : Book.Action)
  | ingest (place : Nat) (document : List UInt8)
  | subscribe (place : Nat)
  | unsubscribe (place : Nat) (handle : Nat)
  | drop (place : Nat)
  | attach (place desk : Nat) (held : Bool)
  | detach (place desk : Nat)
  | register (desk : Nat) (kind : String) (refusal : Option String)
  | unregister (desk : Nat) (kind : String)
  | knows (desk : Nat) (kind : String)
  | load (desk : Nat) (file : String) (held : Option Nat)
  | deliver (desk : Nat) (document : List UInt8) (file : String) (held : Option Nat)

inductive Reply where
  | book (reply : Book.Reply)
  | memory (contains : Bool) (size : Nat)
  | reading (reading : Reading)
  | unparsed (fault : Markup.Fault)

/-- The answer of commands that have none. -/
def nothing : Reply := .book .nothing

def operate (operation : Library.Operation) (s : Session) : Turn Session Reply :=
  let turn := s.library.perform s.bookStorage operation
  ⟨.book turn.answer, { s with library := turn.state }, turn.events⟩

def perform (command : Command) (s : Session) : Turn Session Reply :=
  match command with
  | .put name cell => ⟨nothing, { s with files := s.files.put name cell }, []⟩
  | .inMemory name =>
    ⟨.memory (s.files.names.contains name) s.files.names.length, s, []⟩
  | .read name => ⟨.reading (s.deskStorage name).reading, s, s.deskStorage.missEvents name⟩
  | .act place action => s.operate (.act place action)
  | .ingest place document =>
    match Markup.Element.ofBytes document with
    | .error fault => ⟨.unparsed fault, s, []⟩
    | .ok root => s.operate (.act place (.ingest root))
  | .subscribe place =>
    let turn := s.operate (.act place (.subscribe s.issued.length))
    match turn.answer with
    | .book (.listener id) =>
      { turn with state := { turn.state with issued := s.issued ++ [id] } }
    | _ => turn
  | .unsubscribe place handle =>
    match s.issued[handle]? with
    | none => ⟨.book (.flag false), s, []⟩
    | some id => s.operate (.act place (.unsubscribe id))
  | .drop place => s.operate (.drop place)
  | .attach place desk held => s.operate (.attach place desk held)
  | .detach place desk => s.operate (.detach place desk)
  | .register desk kind refusal =>
    s.operate (.register desk kind ⟨kind, Markup.Element.name, fun _ _ => refusal⟩)
  | .unregister desk kind => s.operate (.unregister desk kind)
  | .knows desk kind => s.operate (.knows desk kind)
  | .load desk file held => s.operate (.load s.deskStorage desk file held)
  | .deliver desk document file held =>
    match Markup.Element.ofBytes document with
    | .error fault => ⟨.unparsed fault, s, []⟩
    | .ok root => s.operate (.deliver desk root file held)

def run : List Command → Session → List (Turn Session Reply)
  | [], _ => []
  | command :: rest, s =>
    let turn := s.perform command
    turn :: run rest turn.state

/-- A session with books that know no language yet. -/
def fresh (files : Files) (roots : List String) (books desks : Nat) : Session where
  files
  bookRoots := roots
  deskRoots := roots
  library := .fresh (List.replicate books Reference.defaultMaxPasses) desks

/-- A session in which every book is made from a configuration. Its desks have
no files. A book that cannot be made is a failure of the whole; where no book is
asked for, the configuration is not looked at. -/
def configured (disk : Disk) (config : Except ConfigFault Config) (books desks : Nat) :
    Except Failure (Session × List Event) :=
  if books = 0 then .ok (fresh (.tree disk) [] 0 desks, [])
  else
    match config with
    | .error fault => .error (.config fault)
    | .ok config =>
      let turn := Book.start (disk.storage config.roots) config
      match turn.answer with
      | .error failure => .error failure
      | .ok () => .ok
        ({ files := .tree disk
           bookRoots := config.roots
           library := ⟨List.replicate books (some turn.state), List.replicate desks ∅⟩ },
          (List.replicate books turn.events).flatten)

def withMaxPasses (maxPasses : Nat) (s : Session) : Session :=
  let bound (b : Book) : Book := { b with maxPasses }
  { s with library := { s.library with books := s.library.books.map (Option.map bound) } }

end Session

end Phrasebook
