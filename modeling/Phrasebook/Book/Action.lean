import Phrasebook.Book.Basic

/-
  What is asked of a phrasebook: the wording of a line, and all actions on the book
  as data, so that a history of a book is a list of them.

  The references of a line are expanded with the tags of the book. A name is looked
  up in the user's layer, then in the language's, and last the fallback is asked, if
  there is one. Questions to the fallback are events, and so is the warning when an
  expansion is cut short.

  Correspondence, in `LanguageManager`:
    `tag`, `resolve`                 ↔ `Book.text`, `Book.resolve`
    `set_unresolved_tag_handler`, `clear_unresolved_tag_handler` ↔ `Action.setFallback`,
      `Action.clearFallback`
    every public function that changes or asks the manager ↔ an `Action`
-/

namespace Phrasebook

/-! ## Wording -/

/-- The record of an expansion that was cut short. -/
def Reference.Expansion.warning? {σ : Type} (e : Reference.Expansion σ) (input : String) :
    Option Record :=
  match e.stop with
  | .outgrown => some (.outgrown e.passes e.text.utf8ByteSize input)
  | .passBound => some (.passBound e.passes input)
  | _ => none

namespace Book

/-- The book's lookup. Its state is what the fallback has been asked, newest
first. -/
def lookup (b : Book) : Reference.Lookup (List String) := fun name asked =>
  match b.tags.lookup name with
  | some value => (some value, asked)
  | none =>
    match b.fallback with
    | none => (none, asked)
    | some fallback => (fallback.answer asked name, name :: asked)

/-- What the fallback has been asked before. -/
def questions (b : Book) : List String :=
  match b.fallback with
  | none => []
  | some fallback => fallback.asked

def expand (b : Book) (line : String) : Reference.Expansion (List String) :=
  Reference.expand b.lookup b.maxPasses line b.questions

/-- The book after an expansion: the fallback remembers its questions. -/
def remember (b : Book) (asked : List String) : Book :=
  { b with fallback := b.fallback.map fun fallback => { fallback with asked } }

def resolve (line : String) (b : Book) : Turn Book String :=
  let e := b.expand line
  let news := (e.state.take (e.state.length - b.questions.length)).reverse
  ⟨e.text, b.remember e.state,
    news.map .asked ++ ((e.warning? line).toList.map .logged)⟩

/-! ## Actions -/

inductive Action where
  | loadRegistration (file : String)
  | ingest (root : Markup.Element)
  | load (scope : Scope) (file : String)
  | switch (name : String)
  | text (tag : String)
  | resolve (line : String)
  | addUserTag (tag value : String)
  | clearUserTags
  | subscribe (handle : Nat)
  | unsubscribe (id : UInt64)
  | setFallback (answer : List String → String → Option String)
  | clearFallback

inductive Reply where
  | nothing
  | outcome (result : Except Failure Unit)
  | text (text : String)
  | listener (id : UInt64)
  | flag (value : Bool)

def perform (storage : Storage) (action : Action) (b : Book) : Turn Book Reply :=
  match action with
  | .loadRegistration file =>
    let turn := b.loadRegistration storage file
    ⟨.outcome turn.answer, turn.state, turn.events⟩
  | .ingest root =>
    let (state, events) := b.ingest storage root
    ⟨.nothing, state, events⟩
  | .load scope file =>
    let turn := b.load storage scope file
    ⟨.outcome turn.answer, turn.state, turn.events⟩
  | .switch name =>
    let turn := b.switch storage name
    ⟨.outcome turn.answer, turn.state, turn.events⟩
  | .text tag => ⟨.text (b.text tag), b, []⟩
  | .resolve line =>
    let turn := b.resolve line
    ⟨.text turn.answer, turn.state, turn.events⟩
  | .addUserTag tag value => ⟨.nothing, { b with tags := b.tags.write (.addUser tag value) }, []⟩
  | .clearUserTags => ⟨.nothing, { b with tags := b.tags.write .clearUser }, []⟩
  | .subscribe handle =>
    let (id, state) := b.subscribe handle
    ⟨.listener id, state, []⟩
  | .unsubscribe id =>
    let (found, state) := b.unsubscribe id
    ⟨.flag found, state, []⟩
  | .setFallback answer => ⟨.nothing, { b with fallback := some { answer } }, []⟩
  | .clearFallback => ⟨.nothing, { b with fallback := none }, []⟩

/-- Performs actions in order: all replies, the last state, and all events. -/
def run (storage : Storage) : List Action → Book → Turn Book (List Reply)
  | [], b => ⟨[], b, []⟩
  | action :: rest, b =>
    let first := b.perform storage action
    let later := run storage rest first.state
    ⟨first.answer :: later.answer, later.state, first.events ++ later.events⟩

end Book

end Phrasebook
