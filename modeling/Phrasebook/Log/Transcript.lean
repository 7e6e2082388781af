import Phrasebook.Log.Filter
import Phrasebook.Log.Line
import Phrasebook.Log.Settings
import Phrasebook.Storage

/-
  What logging leaves behind: the outcome of setting it up, the lines on the
  console, and the lines in a file of the day.

  Logging is set up once. A second attempt fails, even if the first one is
  still to write its file; where the file cannot be made, nothing is set up.

  Correspondence:
    `LoggerError`               ↔ `Fault`
    `init`                      ↔ `setUp`
    `build_file_layer`          ↔ `newFile?`, `filePath`
-/

namespace Phrasebook.Log

def dayMark : String := "DATE"

inductive Fault where
  | noFile
  | takenAlready
  deriving DecidableEq, Repr

def Fault.message : Fault → String
  | .noFile => "failed to create rolling file appender"
  | .takenAlready => "global subscriber already set"

/-- One part further on the way to a file that is to be made; missing directories
are made, and a file is in the way. -/
def passage? (tree : Tree) (names : List String) (part : String) : Option (List String) :=
  match tree.find? names with
  | some (.file _) => none
  | _ =>
    if part = "." then some names
    else if part = ".." then some names.dropLast
    else some (names ++ [part])

/-- Where a file can be made at a path, by the names on the way from the root; no
directory may be in its place. -/
def newFile? (disk : Disk) (path : String) : Option (List String) :=
  match (Pathname.parts path).foldlM (passage? disk.tree) (disk.start path) with
  | none => none
  | some names =>
    match disk.tree.find? names with
    | some (.directory _) => none
    | _ => some names

def filePath (s : Settings) : String :=
  Pathname.join s.logDir (if s.filePrefix = "" then dayMark else s.filePrefix ++ "." ++ dayMark)

/-- Sets logging up, where `taken` says that it is already. Yields whether lines
are written to a file. -/
def setUp (disk : Disk) (s : Settings) (taken : Bool) : Except Fault Bool :=
  if s.file && (newFile? disk (filePath s)).isNone then .error .noFile
  else if taken then .error .takenAlready
  else .ok s.file

/-- The outcome of every attempt to set logging up, and all that was written. -/
structure Transcript where
  outcomes : List (Except Fault Bool)
  console : String
  written : List (String × String)

/-- The files that lines are written to, under their names from the working
directory; a file outside of it is not known. -/
def writtenFiles (disk : Disk) (s : Settings) (lines : String) : List (String × String) :=
  match (newFile? disk (filePath s)).bind disk.fromHere? with
  | some names => [("/".intercalate names, lines)]
  | none => []

/-- Sets logging up, logs messages, and sets it up once more if asked to. -/
def transcript (disk : Disk) (environment : Option String) (s : Settings)
    (messages : List Message) (again : Bool) : Transcript :=
  match setUp disk s false with
  | .error fault =>
    ⟨.error fault :: if again then [setUp disk s false] else [], "", []⟩
  | .ok toFile =>
    let filter := Filter.choose environment s.level
    let passed := messages.filter filter.allows
    let lines := String.join (passed.map (line s.timeFormat))
    ⟨.ok toFile :: if again then [setUp disk s true] else [],
      if s.console then lines else "",
      if toFile then writtenFiles disk s lines else []⟩

end Phrasebook.Log
