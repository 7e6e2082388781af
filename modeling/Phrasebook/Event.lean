import Phrasebook.Markup.Element
import Phrasebook.Storage
import Phrasebook.Tags.Layers

/-
  Why an operation fails, and what it lets be seen while it runs: records in the
  log, calls of listeners, questions about unknown tags, and calls of resource
  handlers. An operation yields its events in the order they happen.

  Correspondence:
    `ConfigError` ↔ `ConfigFault`
    `LinguaError` ↔ `Failure`
    `read_source` ↔ `Storage.contents`
    the messages that are logged ↔ `Record.message`
-/

namespace Phrasebook

/-! ## Failures -/

inductive ConfigFault where
  | unreadable (path : String) (fault : IoFault)
  | malformed
  deriving DecidableEq, Repr

def ConfigFault.message : ConfigFault → String
  | .unreadable path fault => "failed to read config " ++ path ++ ": " ++ fault.message
  | .malformed => "YAML parse error"

inductive Failure where
  | unknownLanguage (name : String)
  | missing (file : String)
  | unreadable (file : String) (fault : IoFault)
  | malformed (file : String) (fault : Markup.Fault)
  | config (fault : ConfigFault)
  | noHandler (kind : String)
  | refused (reason : String)
  | bookDropped
  | bookHeld
  deriving DecidableEq, Repr

def Failure.message : Failure → String
  | .unknownLanguage name => "language '" ++ name ++ "' is not found"
  | .missing file => "file '" ++ file ++ "' not found"
  | .unreadable file fault => "failed to read '" ++ file ++ "': " ++ fault.message
  | .malformed file fault => "malformed markup in '" ++ file ++ "': " ++ fault.message
  | .config fault => fault.message
  | .noHandler kind => "no load handler registered for '" ++ kind ++ "'"
  | .refused reason => reason
  | .bookDropped => "language manager was dropped"
  | .bookHeld => "language manager is already borrowed"

/-- A file's contents from a storage, or why there are none. -/
def Storage.contents (storage : Storage) (file : String) : Except Failure (List UInt8) :=
  match (storage file).reading with
  | .absent => .error (.missing file)
  | .failed fault => .error (.unreadable file fault)
  | .read bytes => .ok bytes

/-! ## Events -/

inductive Level where
  | error
  | warn
  | info
  | debug
  | trace
  deriving DecidableEq, Repr

def Level.name : Level → String
  | .error => "ERROR"
  | .warn => "WARN"
  | .info => "INFO"
  | .debug => "DEBUG"
  | .trace => "TRACE"

/-- Why something is put on record. -/
inductive Record where
  | missed (miss : Miss)
  | loaded (count : Nat) (file : String) (scope : Scope)
  | malformedTags (file : String) (fault : Markup.Fault)
  | failed (failure : Failure)
  | unknownLanguage (name : String)
  | switched (name : String)
  | outgrown (passes bytes : Nat) (input : String)
  | passBound (passes : Nat) (input : String)
  | attachBorrowed
  | attachAgain
  | attaching
  | attached
  | detachAgain
  | detaching
  | detached
  | registering (file : String)
  | ready (languages : Nat) (current : String)
  deriving DecidableEq, Repr

namespace Record

def level : Record → Level
  | .missed _ | .loaded .. | .registering _ => .debug
  | .failed _ | .unknownLanguage _ => .error
  | .malformedTags .. | .outgrown .. | .passBound .. | .attachBorrowed | .attachAgain
  | .detachAgain => .warn
  | .switched _ | .attaching | .attached | .detaching | .detached | .ready .. => .info

def message : Record → String
  | .missed miss => miss.path ++ " not readable: " ++ miss.fault.message
  | .loaded count file scope =>
    "loaded " ++ toString count ++ " tags from '" ++ file ++ "' into " ++ scope.label
  | .malformedTags file fault => (Failure.malformed file fault).message
  | .failed failure => failure.message
  | .unknownLanguage name => "Language '" ++ name ++ "' is not found"
  | .switched name => "language switched to '" ++ name ++ "'"
  | .outgrown passes bytes input =>
    "tag resolution stopped after " ++ toString passes ++ " passes, output grew to " ++
      toString bytes ++ " bytes for '" ++ input ++ "'"
  | .passBound passes input =>
    "tag resolution stopped after " ++ toString passes ++ " passes, possible cyclic tag in '" ++
      input ++ "'"
  | .attachBorrowed => "LanguageManager is already borrowed, not attaching"
  | .attachAgain => "LanguageManager is already attached"
  | .attaching => "* Initialise: LanguageManager"
  | .attached => "LanguageManager successfully initialized"
  | .detachAgain => "LanguageManager is not attached"
  | .detaching => "* Shutdown: LanguageManager"
  | .detached => "LanguageManager successfully shutdown"
  | .registering file => "loading language registration '" ++ file ++ "'"
  | .ready languages current =>
    "LanguageManager ready: " ++ toString languages ++ " languages, current '" ++ current ++ "'"

end Record

/-- One thing that is seen of an operation. -/
inductive Event where
  | logged (record : Record)
  | changed (listener : Nat) (language : String)
  | asked (tag : String)
  | handled (handler note file : String)
  deriving DecidableEq, Repr

/-- What an operation answers, the state it leaves, and its events in order. -/
structure Turn (σ α : Type) where
  answer : α
  state : σ
  events : List Event

/-- The records of the paths a storage tried in vain for a file. -/
def Storage.missEvents (storage : Storage) (file : String) : List Event :=
  (storage file).misses.map fun miss => .logged (.missed miss)

end Phrasebook
