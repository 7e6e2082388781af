import Phrasebook.Text.Unseen
import Phrasebook.Yaml.Node

/-
  How logging is set up: where lines go, from which level on, and how a line
  starts.

  Correspondence:
    `LoggerConfig` ↔ `Settings`; as it is shown ↔ `Settings.describe`
-/

namespace Phrasebook.Log

structure Settings where
  filePrefix : String := "lingua.log"
  logDir : String := "./logs"
  timeFormat : String := "%Y-%m-%d %H:%M:%S%.3f"
  level : String := "info"
  console : Bool := true
  file : Bool := true
  maxFiles : Option Nat := none
  deriving DecidableEq, Repr

namespace Settings

/-- The settings in a node of a document; what is missing has its default. -/
def ofNode? (d : Yaml.Document) (n : Yaml.Node) : Option Settings := do
  let f ← d.fields? n
  let base : Settings := {}
  some {
    filePrefix := ← f.read? "file_prefix" Yaml.Node.text? base.filePrefix
    logDir := ← f.read? "log_dir" Yaml.Node.text? base.logDir
    timeFormat := ← f.read? "time_format" Yaml.Node.text? base.timeFormat
    level := ← f.read? "level" Yaml.Node.text? base.level
    console := ← f.read? "console" Yaml.Node.flag? base.console
    file := ← f.read? "file" Yaml.Node.flag? base.file
    maxFiles := ← f.read? "max_files" (Yaml.Node.optional? Yaml.Node.count?) base.maxFiles }

def hex (n : Nat) : List Char := Nat.toDigits 16 n

/-- How a character is written between quotes. -/
def escaped (c : Char) : List Char :=
  let n := c.toNat
  if c == '"' || c == '\\' then ['\\', c]
  else if c == '\n' then ['\\', 'n']
  else if c == '\t' then ['\\', 't']
  else if c == '\r' then ['\\', 'r']
  else if n == 0 then ['\\', '0']
  else if Text.isUnseen c then
    '\\' :: 'u' :: '{' :: hex n ++ ['}']
  else [c]

def quoted (s : String) : String :=
  String.ofList ('"' :: s.toList.flatMap escaped ++ ['"'])

def optionText : Option Nat → String
  | none => "None"
  | some n => "Some(" ++ toString n ++ ")"

def describe (s : Settings) : String :=
  let fields := [
    "file_prefix: " ++ quoted s.filePrefix,
    "log_dir: " ++ quoted s.logDir,
    "time_format: " ++ quoted s.timeFormat,
    "level: " ++ quoted s.level,
    "console: " ++ toString s.console,
    "file: " ++ toString s.file,
    "max_files: " ++ optionText s.maxFiles]
  "LoggerConfig \x7b " ++ ", ".intercalate fields ++ " \x7d"

end Settings

end Phrasebook.Log
