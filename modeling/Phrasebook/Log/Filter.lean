import Phrasebook.Log.Line
import Phrasebook.Log.Pattern

/-
  Filters: which messages are let through, by level, target and fields.

  A filter is a row of directives between commas. A level alone is the limit
  for all targets, `target=level` for those that begin with the text, and a
  word that is no level is a target without a limit. `target[{field}]=level` is
  for those messages only that have the field, and either part may be missing.

  Of the directives for a message the one with the longest target decides, of
  several with one target the one with a field, of several fields the last in
  the order of names, and of several with one field the last that is written; a
  message without a directive is off. A directive that names a span
  or the value of a field is for messages of a span only, and no message here
  belongs to one.

  Correspondence:
    `build_filter` ↔ `Filter.choose`
-/

namespace Phrasebook.Log

/-- The least urgent level that is let through; none for nothing at all. -/
abbrev Limit := Option Level

/-- The urgency of a level, the most urgent first. -/
def urgency : Level → Nat
  | .error => 1
  | .warn => 2
  | .info => 3
  | .debug => 4
  | .trace => 5

def Limit.allows (limit : Limit) (level : Level) : Bool :=
  limit.any fun l => urgency level ≤ urgency l

/-- The limits by number. -/
def limits : List Limit := [none, some .error, some .warn, some .info, some .debug, some .trace]

/-- A limit by its name, in any case, or by its number. -/
def limit? (word : List Char) : Option Limit :=
  let digits := match word with
    | '+' :: digits => digits
    | digits => digits
  match Text.number? 10 digits with
  | some n => limits[n]?
  | none =>
    match (String.ofList word).toLower with
    | "off" => some none
    | "error" => some (some .error)
    | "warn" => some (some .warn)
    | "info" => some (some .info)
    | "debug" => some (some .debug)
    | "trace" => some (some .trace)
    | _ => none

/-- What may come through of the messages whose target begins with a text and
that have a field, if one is asked for. -/
structure Directive where
  target : String := ""
  field : Option String := none
  limit : Limit
  deriving DecidableEq, Repr

/-! ## Pieces of a segment -/

def byteSize (text : List Char) : Nat := (String.ofList text).utf8ByteSize

/-- The text behind so many bytes, if a character starts there. -/
def dropBytes? : (size : Nat) → List Char → Option (List Char)
  | 0, text => some text
  | _, [] => none
  | size, c :: rest => if c.utf8Size ≤ size then dropBytes? (size - c.utf8Size) rest else none

/-- The text of so many bytes, if a character ends there. -/
def takeBytes? : (size : Nat) → List Char → Option (List Char)
  | 0, _ => some []
  | _, [] => none
  | size, c :: rest =>
    if c.utf8Size ≤ size then (takeBytes? (size - c.utf8Size) rest).map (c :: ·) else none

/-- The piece of a segment from one byte to another. -/
def piece? (segment : List Char) (start stop : Nat) : Option (List Char) :=
  (dropBytes? start segment).bind (takeBytes? (stop - start))

/-! ## Directives -/

namespace Directive

/-- A number with a sign in front, which is a value, though no pattern: digits
with a point or an exponent if need be, or a word for no finite number. -/
def isSigned : List Char → Bool
  | '+' :: text =>
    let whole := text.takeWhile Char.isDigit
    let rest := text.drop whole.length
    let (parts, rest) := match rest with
      | '.' :: rest => (rest.takeWhile Char.isDigit, rest.dropWhile Char.isDigit)
      | _ => ([], rest)
    let exponent := match rest with
      | [] => true
      | e :: rest =>
        let digits := match rest with
          | '+' :: digits => digits
          | '-' :: digits => digits
          | digits => digits
        (e == 'e' || e == 'E') && !digits.isEmpty && digits.all Char.isDigit
    (!(whole ++ parts).isEmpty && exponent) ||
      ["inf", "infinity", "nan"].contains (String.ofList text).toLower
  | _ => false

/-- The name of a field, and whether a value is asked for too. A value is a
number or a pattern; what stands behind another equals sign does not count. -/
def field? (text : List Char) : Option (String × Bool) :=
  let name := String.ofList (text.takeWhile (· != '='))
  match text.dropWhile (· != '=') with
  | '=' :: rest =>
    let value := rest.takeWhile (· != '=')
    if isSigned value || Pattern.isWellFormed value then some (name, true) else none
  | _ => if text.isEmpty then none else some (name, false)

/-- The limit at the end of a segment, where `text` starts at byte
`start`. -/
def end? (segment : List Char) (start : Nat) : (text : List Char) → Option Limit
  | [] => some (some .trace)
  | '=' :: _ => do
    let word ← dropBytes? (start + 1) segment
    if word.isEmpty then some (some .trace) else limit? word
  | _ => none

/-- The rest of a directive behind an opening bracket, where `text` starts at
byte `start`: a span or a field in braces, and perhaps a limit. -/
def bracket? (segment : List Char) (target : String) (start : Nat) (text : List Char) :
    Option (Option Directive) :=
  let span := text.takeWhile fun c => c != ']' && c != '{'
  let stop := start + byteSize span
  match text.drop span.length with
  | ']' :: rest => do
    let _ ← piece? segment start stop
    let _ ← end? segment (stop + 1) rest
    some none
  | '{' :: rest =>
    let written := rest.takeWhile (· != '}')
    let close := stop + 1 + byteSize written
    match rest.drop written.length with
    | '}' :: ']' :: rest => do
      let span ← piece? segment start stop
      let (name, valued) ← field? (← piece? segment (stop + 1) close)
      let limit ← end? segment (close + 2) rest
      if span.isEmpty && !valued then some (some { target, field := some name, limit })
      else some none
    | _ => none
  | _ => none

/-- The directive that a segment holds, if it holds one for messages outside
spans. White space around a segment is passed over when its parts are told
apart, but the parts are cut from the whole, at the same bytes. -/
def ofSegment? (segment : List Char) : Option (Option Directive) :=
  match Text.trim segment with
  | [] => none
  | '[' :: rest => bracket? segment "" 1 rest
  | c :: rest =>
    if !(Text.isAlphanumeric c || c == '-' || c == ':' || c == '_') then none
    else
      let word := rest.takeWhile fun c => c != '=' && c != '['
      let size := byteSize (c :: word)
      match rest.drop word.length with
      | [] =>
        match limit? segment with
        | some limit => some (some { limit })
        | none => some (some { target := String.ofList segment, limit := some .trace })
      | '[' :: rest => do
        bracket? segment (String.ofList (← piece? segment 0 size)) (size + 1) rest
      | rest => do
        let target := String.ofList (← piece? segment 0 size)
        let limit ← end? segment size rest
        some (some { target, limit })

def concerns (d : Directive) (m : Message) : Bool :=
  d.target.toList.isPrefixOf m.target.toList && d.field.all m.form.fields.contains

/-- Whether the first of two directives for a message gives way to the second. -/
def yields (first second : Directive) : Bool :=
  let a := first.target.utf8ByteSize
  let b := second.target.utf8ByteSize
  a < b || (a == b &&
    match first.field, second.field with
    | none, _ => true
    | some _, none => false
    | some f, some g => !(g < f : Bool))

end Directive

/-! ## Rows of directives -/

/-- A row of directives; their order matters for equal targets and fields only. -/
abbrev Filter := List Directive

namespace Filter

def ofText? (text : String) : Option Filter := do
  let segments := (text.splitOn ",").filter (· ≠ "")
  let directives ← segments.mapM fun s => Directive.ofSegment? s.toList
  some (directives.filterMap id)

/-- Of two directives for a message the one that decides. -/
def stronger (before : Option Directive) (d : Directive) : Option Directive :=
  if before.all (·.yields d) then some d else before

def decisive? (f : Filter) (m : Message) : Option Directive :=
  (f.filter (·.concerns m)).foldl stronger none

def allows (f : Filter) (m : Message) : Bool :=
  (f.decisive? m).any (·.limit.allows m.level)

/-- The filter in force: the environment's if it is valid, else the one that is
set, else the default. -/
def choose (environment : Option String) (level : String) : Filter :=
  ((environment.bind ofText?).or (ofText? level)).getD [{ limit := some .info }]

end Filter

end Phrasebook.Log
