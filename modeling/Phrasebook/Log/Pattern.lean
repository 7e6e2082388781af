import Phrasebook.Text.Alphanumeric
import Phrasebook.Text.Basic

/-
  Patterns for the values of fields: regular expressions, of which it is decided
  here whether they are well formed. No pattern is ever matched, because no
  message has fields whose values a filter could ask for.

  A pattern has to match whole characters only, and it may ask for the borders
  of words only where words are made of ASCII. Bounds on repetitions cannot be
  written, for a brace ends the field.
-/

namespace Phrasebook.Log.Pattern

/-- What is set by flags: whether classes go beyond ASCII, and whether white
space and comments are passed over. -/
structure Mode where
  unicode : Bool := true
  spaced : Bool := false
  deriving DecidableEq, Repr

/-- What a backslash and what follows it stand for: a character, a class, or a
place in the text. -/
inductive Escape where
  | char (number : Nat)
  | group
  | place
  deriving DecidableEq, Repr

/-- The letters whose escape is a control character. -/
def controls : List (Char × Nat) :=
  [('a', 0x07), ('f', 0x0C), ('n', 0x0A), ('r', 0x0D), ('t', 0x09), ('v', 0x0B)]

/-- How many digits follow a letter that gives a character by its number. -/
def digitCount? (c : Char) : Option Nat :=
  [('x', 2), ('u', 4), ('U', 8)].lookup c

def escape? (mode : Mode) : List Char → Option (Escape × List Char)
  | [] => none
  | c :: rest =>
    match digitCount? c, controls.lookup c with
    | some size, _ =>
      if rest.length < size then none
      else match Text.number? 16 (rest.take size) with
        | none => none
        | some n =>
          if n.isValidChar ∧ (mode.unicode ∨ n < 0x80 ∨ size ≠ 2) then
            some (.char n, rest.drop size)
          else none
    | none, some n => some (.char n, rest)
    | none, none =>
      if c == 'p' || c == 'P' then
        match rest with
        | name :: rest =>
          if mode.unicode && "clmnpszCLMNPSZ".toList.contains name then some (.group, rest)
          else none
        | [] => none
      else if ['d', 's', 'w'].contains c then some (.group, rest)
      else if ['D', 'S', 'W'].contains c then if mode.unicode then some (.group, rest) else none
      else if c == 'A' || c == 'z' then some (.place, rest)
      else if ['b', 'B', '<', '>'].contains c then
        if mode.unicode then none else some (.place, rest)
      else if c.isAlphanum || 0x80 ≤ c.toNat then none
      else some (.char c.toNat, rest)

/-! ## Classes in brackets -/

/-- The classes with a name between `[:` and `:]`. -/
def classNames : List String :=
  ["alnum", "alpha", "ascii", "blank", "cntrl", "digit", "graph", "lower", "print", "punct",
   "space", "upper", "word", "xdigit"]

/-- What follows a class with a name, behind its first bracket. -/
def namedClass? : List Char → Option (List Char)
  | ':' :: rest =>
    let rest := if rest.head? = some '^' then rest.drop 1 else rest
    match rest.dropWhile (· != ':') with
    | ':' :: ']' :: after =>
      if classNames.contains (String.ofList (rest.takeWhile (· != ':'))) then some after else none
    | _ => none
  | _ => none

/-- What follows the opening of a class, behind its bracket: `^`, hyphens, or
else a closing bracket, which stands for itself there. -/
def openClass? (mode : Mode) (text : List Char) : Option (List Char) :=
  let negated := text.head? = some '^'
  let text := if negated then text.drop 1 else text
  if negated ∧ !mode.unicode then none
  else if text.head? = some '-' then some (text.dropWhile (· == '-'))
  else if text.head? = some ']' then some (text.drop 1)
  else some text

/-- A member of a class: its number, if it is a character, and what follows. -/
def member? (mode : Mode) : List Char → Option (Option Nat × List Char)
  | '\\' :: rest =>
    match escape? mode rest with
    | some (.char n, rest) => some (some n, rest)
    | some (.group, rest) => some (none, rest)
    | _ => none
  | c :: rest => if mode.unicode || c.toNat < 0x80 then some (some c.toNat, rest) else none
  | [] => none

/-- A member of a class or a range of them, and what follows. -/
def range? (mode : Mode) (text : List Char) : Option (List Char) := do
  let (first, rest) ← member? mode text
  match rest with
  | [] => none
  | '-' :: ']' :: _ => some rest
  | '-' :: '-' :: _ => some rest
  | '-' :: rest =>
    let (last, rest) ← member? mode rest
    match first, last with
    | some low, some high => if low ≤ high then some rest else none
    | _, _ => none
  | _ => some rest

/-- What follows a class of which `depth` brackets are open. -/
def class? (mode : Mode) : (fuel depth : Nat) → List Char → Option (List Char)
  | 0, _, _ => none
  | _, _, [] => none
  | fuel + 1, depth, c :: rest =>
    if mode.spaced && Text.isBlank c then class? mode fuel depth rest
    else if c == '[' then
      match namedClass? rest with
      | some rest => class? mode fuel depth rest
      | none => (openClass? mode rest).bind (class? mode fuel (depth + 1))
    else if c == ']' then if depth ≤ 1 then some rest else class? mode fuel (depth - 1) rest
    else if (c == '&' || c == '-' || c == '~') && rest.head? = some c then
      class? mode fuel depth (rest.drop 1)
    else (range? mode (c :: rest)).bind (class? mode fuel depth)

/-! ## Groups -/

def flagLetters : List Char := ['i', 'm', 's', 'U', 'u', 'R', 'x']

/-- The mode after a row of flags. Those behind a hyphen are taken back. -/
def Mode.set (mode : Mode) : (on : Bool) → List Char → Mode
  | _, [] => mode
  | on, c :: rest =>
    if c == '-' then mode.set false rest
    else if c == 'u' then { mode with unicode := on }.set on rest
    else if c == 'x' then { mode with spaced := on }.set on rest
    else mode.set on rest

/-- Whether a row of flags is well formed: every flag once, and at most one
hyphen, which has a flag behind it. -/
def flagsOk (flags : List Char) : Bool :=
  flags.all (fun c => c == '-' || flagLetters.contains c) && flags.eraseDups == flags &&
    flags.getLast? != some '-'

inductive Opening where
  | group (mode : Mode) (name : Option (List Char))
  | flags (mode : Mode)

/-- Whether a row of characters can name a group. -/
def isName : List Char → Bool
  | [] => false
  | c :: rest =>
    (c == '_' || (Text.isAlphanumeric c && !c.isDigit)) &&
      rest.all fun c => c == '_' || c == '.' || c == '[' || c == ']' || Text.isAlphanumeric c

def named? (mode : Mode) (text : List Char) : Option (Opening × List Char) :=
  match text.dropWhile (· != '>') with
  | '>' :: rest =>
    let name := text.takeWhile (· != '>')
    if isName name then some (.group mode (some name), rest) else none
  | _ => none

def open? (mode : Mode) : List Char → Option (Opening × List Char)
  | '?' :: 'P' :: '<' :: rest => named? mode rest
  | '?' :: '<' :: rest => named? mode rest
  | '?' :: rest =>
    let flags := rest.takeWhile fun c => c != ':' && c != ')'
    if !flagsOk flags then none
    else match rest.drop flags.length with
      | ':' :: rest => some (.group (mode.set true flags) none, rest)
      | ')' :: rest => if flags.isEmpty then none else some (.flags (mode.set true flags), rest)
      | _ => none
  | rest => some (.group mode none, rest)

/-! ## Patterns -/

/-- How far a pattern is read: the mode, those to go back to at the ends of open
groups, the names of groups, and whether what stands before can be repeated. -/
structure Reader where
  mode : Mode := {}
  outer : List Mode := []
  names : List (List Char) := []
  repeatable : Bool := false

def rest? : (fuel : Nat) → Reader → List Char → Bool
  | 0, _, _ => false
  | _, r, [] => r.outer.isEmpty
  | fuel + 1, r, c :: rest =>
    let plain := { r with repeatable := true }
    if r.mode.spaced && Text.isBlank c then rest? fuel r rest
    else if r.mode.spaced && c == '#' then rest? fuel r (rest.dropWhile (· != '\n'))
    else if c == '(' then
      match open? r.mode rest with
      | none => false
      | some (.flags mode, rest) => rest? fuel { r with mode, repeatable := false } rest
      | some (.group mode name, rest) =>
        if name.any r.names.contains then false
        else rest? fuel ⟨mode, r.mode :: r.outer, name.toList ++ r.names, false⟩ rest
    else if c == ')' then
      match r.outer with
      | [] => false
      | mode :: outer => rest? fuel { plain with mode, outer } rest
    else if c == '|' then rest? fuel { r with repeatable := false } rest
    else if c == '[' then
      match (openClass? r.mode rest).bind (class? r.mode (rest.length + 1) 1) with
      | none => false
      | some rest => rest? fuel plain rest
    else if c == '?' || c == '*' || c == '+' then
      r.repeatable && rest? fuel r (if rest.head? = some '?' then rest.drop 1 else rest)
    else if c == '{' then false
    else if c == '\\' then
      match escape? r.mode rest with
      | none => false
      | some (_, rest) => rest? fuel plain rest
    else if c == '.' then r.mode.unicode && rest? fuel plain rest
    else rest? fuel plain rest

def isWellFormed (text : List Char) : Bool := rest? (text.length + 1) {} text

end Phrasebook.Log.Pattern
