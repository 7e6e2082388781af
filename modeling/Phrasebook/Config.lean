import Phrasebook.Book.Basic
import Phrasebook.Log.Settings
import Phrasebook.Placeholder
import Phrasebook.Storage

/-
  The configuration of a phrasebook, and the book that is made from it.

  A configuration is a YAML mapping in which placeholders are replaced from the
  environment before it is read. For a book, its registrations are loaded, then its
  user files, and then its language is switched to if it names one. Whatever becomes
  of a file, the next one is loaded; only a language that is not registered is a
  failure.

  Correspondence:
    `LinguaConfig` ↔ `Config`; `from_yaml` ↔ `Config.ofText`; `from_file` ↔
      `Config.ofFile`
    `LanguageManager.from_config` ↔ `Book.start`
-/

namespace Phrasebook

/-! ## Reading -/

/-- Where to look for files, what to load at the start, and how to resolve and
log. -/
structure Config where
  roots : List String := ["./resources"]
  registrations : List String := []
  userFiles : List String := []
  language : Option String := none
  maxPasses : Nat := Reference.defaultMaxPasses
  log : Log.Settings := {}
  deriving DecidableEq, Repr

namespace Config

/-- The configuration in a document; what is missing has its default. -/
def ofDocument? (d : Yaml.Document) : Option Config := do
  let f ← d.fields? d.root
  let base : Config := {}
  let texts := d.list? Yaml.Node.text?
  some {
    roots := ← f.read? "roots" texts base.roots
    registrations := ← f.read? "registrations" texts base.registrations
    userFiles := ← f.read? "user_files" texts base.userFiles
    language := ← f.read? "language" (Yaml.Node.optional? Yaml.Node.text?) base.language
    maxPasses := ← f.read? "max_passes" Yaml.Node.count? base.maxPasses
    log := ← f.read? "log" (Log.Settings.ofNode? d) base.log }

/-- The configuration in a text, with placeholders for the variables of an
environment. -/
def ofText (env : String → Option String) (text : String) : Except ConfigFault Config :=
  match (Yaml.Document.ofText? (Placeholder.replaceAll env text).toList).bind ofDocument? with
  | some config => .ok config
  | none => .error .malformed

/-- The configuration in a file, which has to be UTF-8. -/
def ofFile (env : String → Option String) (disk : Disk) (path : String) :
    Except ConfigFault Config :=
  match disk.readAt path with
  | .error fault => .error (.unreadable path fault)
  | .ok .absent => .error (.unreadable path .notFound)
  | .ok (.failed fault) => .error (.unreadable path fault)
  | .ok (.read bytes) =>
    match Utf8.decode bytes with
    | .error _ => .error (.unreadable path .notText)
    | .ok text => ofText env (String.ofList text)

end Config

/-! ## Starting -/

namespace Book

def loadRegistrations (storage : Storage) : List String → Book → Book × List Event
  | [], b => (b, [])
  | file :: rest, b =>
    let first := b.loadRegistration storage file
    let (state, events) := loadRegistrations storage rest first.state
    (state, first.events ++ events)

def readyEvent (b : Book) : Event := .logged (.ready b.packs.size b.current)

def start (storage : Storage) (config : Config) : Turn Book (Except Failure Unit) :=
  let (b, registered) :=
    loadRegistrations storage config.registrations { maxPasses := config.maxPasses }
  let (b, loaded) := b.loadAll storage .user config.userFiles
  match config.language.filter (· ≠ "") with
  | none => ⟨.ok (), b, registered ++ loaded ++ [b.readyEvent]⟩
  | some language =>
    let turn := b.switch storage language
    ⟨turn.answer, turn.state, registered ++ loaded ++ turn.events ++
      if turn.answer.isOk then [turn.state.readyEvent] else []⟩

end Book

end Phrasebook
