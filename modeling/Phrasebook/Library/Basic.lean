import Phrasebook.Book.Action

/-
  A library of phrasebooks, and of desks where resource files are handed in.

  A resource has a kind, and a desk has at most one handler for each kind: the one
  registered last. The root of a file decides on the kind, the kind on the handler,
  and the handler on the outcome. A file that cannot be read, and a kind without a
  handler, reach no handler.

  A book is attached to a desk by a handler for registration documents, and detached
  by taking the handler of that kind away; both leave a book alone whose `attached`
  flag says it is done already. The handler knows the place of its book, not the
  book: the book can be dropped from the library under it.

  The operations on a library are data: a history of it is a list of them. The books
  read their files from one storage; a desk reads the files handed in from whatever
  storage comes with them.

  Correspondence:
    `ResourceRegistry` ↔ `Desk`; `LoadHandler` ↔ `Handler`
    `register_handler`, `unregister_handler`, `has_handler` ↔ `Operation.register`,
      `Operation.unregister`, `Operation.knows`
    `load`, `load_element` ↔ `Library.load`, `Library.deliver`
    `LanguageManager.attach`, `LanguageManager.detach` ↔ `Library.attach`, `Library.detach`
    the handler that `attach` registers ↔ `Handler.book`
-/

namespace Phrasebook

/-! ## Desks -/

/-- A handler of somebody's own: what it is called, what it notes of a root, and
the reason for which it refuses a root out of a file, if it has one. -/
structure Recorder where
  name : String
  note : Markup.Element → String
  refusal? : Markup.Element → String → Option String

/-- What a desk does with the resources of a kind. A recorder makes them an event;
the other handler takes registration documents into the book at a place of the
library. -/
inductive Handler where
  | recorder (recorder : Recorder)
  | book (place : Nat)

/-- Whether a handler is the one of a book. -/
instance (handler : Option Handler) (place : Nat) :
    Decidable (handler = some (.book place)) :=
  match handler with
  | none => .isFalse nofun
  | some (.recorder _) => .isFalse nofun
  | some (.book place') => decidable_of_iff (place' = place) (by simp)

abbrev Desk := Std.ExtTreeMap String Handler

def registrationKind : String := "Language"

/-- The kind of a resource: its attribute `type`, or its name without one. -/
def Markup.Element.kind (root : Markup.Element) : String :=
  (root.attribute? "type").getD root.name

/-! ## Books and desks -/

/-- A book that was dropped leaves its place empty. -/
structure Library where
  books : List (Option Book)
  desks : List Desk

namespace Library

def book? (l : Library) (place : Nat) : Option Book := l.books[place]?.join

def setBook (l : Library) (place : Nat) (b : Book) : Library :=
  { l with books := l.books.set place (some b) }

def drop (l : Library) (place : Nat) : Library :=
  { l with books := l.books.set place none }

def desk (l : Library) (g : Nat) : Desk := l.desks[g]?.getD ∅

def register (l : Library) (g : Nat) (kind : String) (handler : Handler) : Library :=
  { l with desks := l.desks.set g ((l.desk g).insert kind handler) }

/-- The library without a handler for a kind at a desk, and whether there was
one. -/
def unregister (l : Library) (g : Nat) (kind : String) : Bool × Library :=
  ((l.desk g).contains kind, { l with desks := l.desks.set g ((l.desk g).erase kind) })

/-- Attaches the book at a place to a desk, unless somebody holds the book. -/
def attach (l : Library) (place g : Nat) (held : Bool) : Library × List Event :=
  match l.book? place with
  | none => (l, [])
  | some b =>
    if held then (l, [.logged .attachBorrowed])
    else if b.attached then (l, [.logged .attachAgain])
    else
      ((l.register g registrationKind (.book place)).setBook place { b with attached := true },
        [.logged .attaching, .logged .attached])

def detach (l : Library) (place g : Nat) : Library × List Event :=
  match l.book? place with
  | none => (l, [])
  | some b =>
    if b.attached then
      ((l.unregister g registrationKind).2.setBook place { b with attached := false },
        [.logged .detaching, .logged .detached])
    else (l, [.logged .detachAgain])

end Library

/-! ## Deliveries -/

/-- What a recorder says to a root out of a file. -/
def Recorder.answer (recorder : Recorder) (root : Markup.Element) (file : String) :
    Except Failure Unit :=
  match recorder.refusal? root file with
  | some reason => .error (.refused reason)
  | none => .ok ()

namespace Library

/-- One handler at work. `held` is the place of a book that somebody holds; it
takes no documents then, and neither does a book that was dropped. -/
def handle (storage : Storage) (held : Option Nat) (handler : Handler) (root : Markup.Element)
    (file : String) (l : Library) : Turn Library (Except Failure Unit) :=
  match handler with
  | .recorder recorder =>
    ⟨recorder.answer root file, l, [.handled recorder.name (recorder.note root) file]⟩
  | .book place =>
    match l.book? place with
    | none => ⟨.error .bookDropped, l, []⟩
    | some b =>
      if held = some place then ⟨.error .bookHeld, l, []⟩
      else
        let (after, events) := b.ingest storage root
        ⟨.ok (), l.setBook place after, .logged (.registering file) :: events⟩

/-- Hands a resource in at a desk. -/
def deliver (storage : Storage) (held : Option Nat) (g : Nat) (root : Markup.Element)
    (file : String) (l : Library) : Turn Library (Except Failure Unit) :=
  match (l.desk g)[root.kind]? with
  | none => ⟨.error (.noHandler root.kind), l, []⟩
  | some handler => l.handle storage held handler root file

/-- Reads a resource file from `source` and hands it in at a desk; the books
read their files from `storage`. -/
def load (storage source : Storage) (held : Option Nat) (g : Nat) (file : String)
    (l : Library) : Turn Library (Except Failure Unit) :=
  let tried := source.missEvents file
  match source.contents file with
  | .error failure => ⟨.error failure, l, tried⟩
  | .ok bytes =>
    match Markup.Element.ofBytes bytes with
    | .error fault => ⟨.error (.malformed file fault), l, tried⟩
    | .ok root =>
      let turn := l.deliver storage held g root file
      { turn with events := tried ++ turn.events }

/-! ## Operations -/

/-- The library as it is made, with a book for every bound on the passes. The
books know no language yet and the desks no handler. -/
def fresh (bounds : List Nat) (desks : Nat) : Library :=
  ⟨bounds.map fun maxPasses => some { maxPasses }, List.replicate desks ∅⟩

inductive Operation where
  | act (place : Nat) (action : Book.Action)
  | drop (place : Nat)
  | attach (place desk : Nat) (held : Bool)
  | detach (place desk : Nat)
  | register (desk : Nat) (kind : String) (recorder : Recorder)
  | unregister (desk : Nat) (kind : String)
  | knows (desk : Nat) (kind : String)
  | load (source : Storage) (desk : Nat) (file : String) (held : Option Nat)
  | deliver (desk : Nat) (root : Markup.Element) (file : String) (held : Option Nat)

def act (storage : Storage) (place : Nat) (action : Book.Action) (l : Library) :
    Turn Library Book.Reply :=
  match l.book? place with
  | none => ⟨.nothing, l, []⟩
  | some b =>
    let turn := b.perform storage action
    ⟨turn.answer, l.setBook place turn.state, turn.events⟩

def settle (turn : Turn Library (Except Failure Unit)) : Turn Library Book.Reply :=
  ⟨.outcome turn.answer, turn.state, turn.events⟩

def perform (storage : Storage) (operation : Operation) (l : Library) :
    Turn Library Book.Reply :=
  match operation with
  | .act place action => l.act storage place action
  | .drop place => ⟨.nothing, l.drop place, []⟩
  | .attach place desk held =>
    let (state, events) := l.attach place desk held
    ⟨.nothing, state, events⟩
  | .detach place desk =>
    let (state, events) := l.detach place desk
    ⟨.nothing, state, events⟩
  | .register desk kind recorder =>
    ⟨.nothing, l.register desk kind (.recorder recorder), []⟩
  | .unregister desk kind =>
    let (found, state) := l.unregister desk kind
    ⟨.flag found, state, []⟩
  | .knows desk kind => ⟨.flag ((l.desk desk).contains kind), l, []⟩
  | .load source desk file held => settle (l.load storage source held desk file)
  | .deliver desk root file held => settle (l.deliver storage held desk root file)

/-- Performs operations in order: all replies, the last state, and all events. -/
def run (storage : Storage) : List Operation → Library → Turn Library (List Book.Reply)
  | [], l => ⟨[], l, []⟩
  | operation :: rest, l =>
    let first := l.perform storage operation
    let later := run storage rest first.state
    ⟨first.answer :: later.answer, later.state, first.events ++ later.events⟩

end Library

end Phrasebook
