import Phrasebook.Event
import Phrasebook.Pack.Registration
import Phrasebook.Reference.Expansion
import Phrasebook.TagFile.Format

/-
  A phrasebook: the registered language packs, the language in use, the two
  layers of tags, and who is told when the language changes.

  A tag file that is missing or cannot be read is a failure; one with malformed
  markup is put on record and gives no tags. A switch clears the language layer and
  loads the files of the pack one after the other, whatever becomes of each of them.

  A file that a document declares for a language goes to the end of its pack, and is
  loaded at once if the language is in use; a file declared for the user is loaded at
  once. Then the document's preferred language is switched to. Without a preference
  the listeners are told if a file was declared for the language in use, or one for
  the user could be read.

  Correspondence:
    `LanguageManager`               ↔ `Book`; `ListenerId` ↔ `Listener.id`
    `subscribe`, `unsubscribe`      ↔ `Book.subscribe`, `Book.unsubscribe`
    `notify_language_changed`       ↔ `Book.announce`
    `load_language`, `load_user_tags` ↔ `Book.load`
    `set_current_language`          ↔ `Book.switch`
    `ingest_markup`                 ↔ `Book.ingest`
    `load_registration`             ↔ `Book.loadRegistration`
-/

namespace Phrasebook

/-! ## Books -/

/-- A listener and the number it was subscribed under. `handle` tells the
listeners apart that the events name. -/
structure Listener where
  id : UInt64
  handle : Nat
  deriving DecidableEq, Repr

/-- Who is asked for tags that neither layer has. An answer may depend on all
that was asked before, newest first. -/
structure Fallback where
  answer : (before : List String) → (tag : String) → Option String
  asked : List String := []

/-- A phrasebook. `current` is empty while no language is in use, and `nextId` is
the number of the next listener. -/
structure Book where
  packs : Packs := ∅
  tags : Layers := {}
  current : String := ""
  maxPasses : Nat := Reference.defaultMaxPasses
  listeners : List Listener := []
  nextId : UInt64 := 0
  fallback : Option Fallback := none
  attached : Bool := false

namespace Book

/-- The text of a tag, or the tag itself where nothing defines it. -/
def text (b : Book) (tag : String) : String := (b.tags.lookup tag).getD tag

/-- Every listener is told the language in use, in the order of subscription. -/
def announce (b : Book) : List Event :=
  b.listeners.map fun l => .changed l.handle b.current

/-- Adds a listener and answers with its number. Numbers have 64 bits. -/
def subscribe (b : Book) (handle : Nat) : UInt64 × Book :=
  (b.nextId,
    { b with listeners := b.listeners ++ [⟨b.nextId, handle⟩], nextId := b.nextId + 1 })

/-- Removes the listener with a number and answers whether there was one. -/
def unsubscribe (b : Book) (id : UInt64) : Bool × Book :=
  (b.listeners.any (·.id == id), { b with listeners := b.listeners.filter (·.id != id) })

end Book

/-! ## Loading -/

/-- What a storage has of a tag file. -/
inductive TagFile.Contents where
  | failed (failure : Failure)
  | malformed (fault : Markup.Fault)
  | tags (tags : Tags)

/-- Reads a tag file in the format of its name. -/
def TagFile.contents (storage : Storage) (file : String) : TagFile.Contents :=
  match storage.contents file with
  | .error failure => .failed failure
  | .ok bytes =>
    match (Format.ofName file).read bytes with
    | .error fault => .malformed fault
    | .ok tags => .tags tags

/-- The tags that a file contributes; one that cannot be had contributes none. -/
def TagFile.fragment (storage : Storage) (file : String) : Tags :=
  match TagFile.contents storage file with
  | .tags tags => tags
  | _ => ∅

namespace Book

def load (storage : Storage) (scope : Scope) (file : String) (b : Book) :
    Turn Book (Except Failure Unit) :=
  let tried := storage.missEvents file
  match TagFile.contents storage file with
  | .failed failure => ⟨.error failure, b, tried ++ [.logged (.failed failure)]⟩
  | .malformed fault => ⟨.ok (), b, tried ++ [.logged (.malformedTags file fault)]⟩
  | .tags tags =>
    ⟨.ok (), { b with tags := b.tags.merge scope tags },
      tried ++ [.logged (.loaded tags.size file scope)]⟩

def loadAll (storage : Storage) (scope : Scope) : List String → Book → Book × List Event
  | [], b => (b, [])
  | file :: rest, b =>
    let first := b.load storage scope file
    let (state, events) := loadAll storage scope rest first.state
    (state, first.events ++ events)

def switch (storage : Storage) (name : String) (b : Book) : Turn Book (Except Failure Unit) :=
  match b.packs.files? name with
  | none => ⟨.error (.unknownLanguage name), b, [.logged (.unknownLanguage name)]⟩
  | some files =>
    let cleared := { b with tags := b.tags.write .clearLanguage, current := name }
    let (state, events) := loadAll storage .language files cleared
    ⟨.ok (), state, events ++ .logged (.switched name) :: state.announce⟩

/-! ## Registration documents -/

/-- Takes in one declared file and answers whether listeners have to know. -/
def accept (storage : Storage) (entry : Registration.Entry) (b : Book) : Turn Book Bool :=
  match entry with
  | .user file =>
    let turn := b.load storage .user file
    ⟨turn.answer.isOk, turn.state, turn.events⟩
  | .pack language file =>
    let registered := { b with packs := b.packs.add language file }
    if language = b.current then
      let turn := registered.load storage .language file
      ⟨true, turn.state, turn.events⟩
    else ⟨false, registered, []⟩

def acceptAll (storage : Storage) : List Registration.Entry → Book → Turn Book Bool
  | [], b => ⟨false, b, []⟩
  | entry :: rest, b =>
    let first := b.accept storage entry
    let later := acceptAll storage rest first.state
    ⟨first.answer || later.answer, later.state, first.events ++ later.events⟩

def register (storage : Storage) (registration : Registration) (b : Book) :
    Book × List Event :=
  let turn := b.acceptAll storage registration.entries
  match registration.preferred with
  | some name =>
    let switched := turn.state.switch storage name
    (switched.state, turn.events ++ switched.events)
  | none =>
    if turn.answer then (turn.state, turn.events ++ turn.state.announce)
    else (turn.state, turn.events)

def ingest (storage : Storage) (root : Markup.Element) (b : Book) : Book × List Event :=
  b.register storage (.ofElement root)

def loadRegistration (storage : Storage) (file : String) (b : Book) :
    Turn Book (Except Failure Unit) :=
  let tried := storage.missEvents file
  match storage.contents file with
  | .error failure => ⟨.error failure, b, tried ++ [.logged (.failed failure)]⟩
  | .ok bytes =>
    match Markup.Element.ofBytes bytes with
    | .error fault =>
      let failure := Failure.malformed file fault
      ⟨.error failure, b, tried ++ [.logged (.failed failure)]⟩
    | .ok root =>
      let (state, events) := b.ingest storage root
      ⟨.ok (), state, tried ++ events⟩

end Book

end Phrasebook
