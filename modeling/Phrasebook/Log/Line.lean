import Phrasebook.Event
import Phrasebook.Text.Basic

/-
  Messages as they are handed to the log, and the line that a message leaves in it:
  a stamp, the level in five columns, the target, and the text.
-/

namespace Phrasebook.Log

/-! ## Messages -/

/-- How a message comes to the log: as an event, or as a record that also says
where it was made. -/
inductive Form where
  | event
  | record
  deriving DecidableEq, Repr

def Form.fields : Form → List String
  | .event => ["message"]
  | .record => ["message", "log.target", "log.module_path", "log.file", "log.line"]

structure Message where
  form : Form
  level : Level
  target : String
  text : String
  deriving DecidableEq, Repr

/-! ## Stamps -/

/-- The numbers that a time format can ask for, by their letters. They can be
padded. -/
def numberLetters : List Char := "CGHIMSUVWYdefgjklmqsuwy".toList

/-- What else a time format can ask for by one letter. -/
def otherLetters : List Char := "ABDFPRTXZabchprvxz+".toList

/-- How many characters behind `%` ask for a part of the date or the time. -/
def fieldSize? : List Char → Option Nat
  | ':' :: ':' :: ':' :: 'z' :: _ => some 4
  | ':' :: ':' :: 'z' :: _ => some 3
  | ':' :: 'z' :: _ => some 2
  | '.' :: 'f' :: _ => some 2
  | '.' :: c :: 'f' :: _ => if ['3', '6', '9'].contains c then some 3 else none
  | c :: rest =>
    if numberLetters.contains c || otherLetters.contains c then some 1
    else if ['-', '0', '_'].contains c then
      if rest.head?.any numberLetters.contains then some 2 else none
    else if ['3', '6', '9'].contains c then
      if rest.head? = some 'f' then some 2 else none
    else none
  | [] => none

/-- The stamp that a time format gives, if it is one: `%%` is a percent sign,
`%n` a line feed and `%t` a tab. What asks for a part of the date or the time
stays as it is written, for there is no clock here. -/
def stamp? (format : List Char) : Option (List Char) :=
  match format with
  | [] => some []
  | '%' :: '%' :: rest => (stamp? rest).map ('%' :: ·)
  | '%' :: 'n' :: rest => (stamp? rest).map ('\n' :: ·)
  | '%' :: 't' :: rest => (stamp? rest).map ('\t' :: ·)
  | '%' :: rest =>
    match fieldSize? rest with
    | some size => (stamp? (rest.drop size)).map fun more => '%' :: rest.take size ++ more
    | none => none
  | c :: rest => (stamp? rest).map (c :: ·)
termination_by format.length
decreasing_by
  all_goals simp only [List.length_cons, List.length_drop]
  all_goals omega

/-- The stamp of a time format; one that is none has a stamp of its own. -/
def stamp (format : String) : List Char :=
  (stamp? format.toList).getD "<unknown time>".toList

/-! ## Texts -/

/-- The controls that could steer a terminal are spelled out in messages. -/
def spelled (c : Char) : List Char :=
  let n := c.toNat
  if n == 0x07 || n == 0x08 || n == 0x0C || n == 0x1B || n == 0x7F then
    '\\' :: 'x' :: (if n < 16 then ['0'] else []) ++ Nat.toDigits 16 n
  else if 0x80 ≤ n && n ≤ 0x9F then
    '\\' :: 'u' :: '{' :: Nat.toDigits 16 n ++ ['}']
  else [c]

/-- The text without what changes the colour on a terminal: an escape, a bracket,
digits and semicolons, and an `m`. -/
def uncoloured (text : List Char) : List Char :=
  match text with
  | [] => []
  | '\x1B' :: '[' :: rest =>
    match h : rest.dropWhile fun c => c.isDigit || c == ';' with
    | 'm' :: after =>
      have := Text.length_lt_of_dropWhile_eq h
      uncoloured after
    | _ => '\x1B' :: '[' :: uncoloured rest
  | c :: rest => c :: uncoloured rest
termination_by text.length
decreasing_by
  all_goals simp only [List.length_cons]
  all_goals omega

/-! ## Lines -/

/-- The name of a level, in five columns. -/
def column (level : Level) : List Char :=
  List.replicate (5 - level.name.length) ' ' ++ level.name.toList

def line (format : String) (m : Message) : String :=
  String.ofList (uncoloured (stamp format ++ ' ' :: column m.level ++ ' ' :: m.target.toList ++
    ':' :: ' ' :: m.text.toList.flatMap spelled ++ ['\n']))

end Phrasebook.Log
