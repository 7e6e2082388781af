/-
  The characters of a YAML text in their places. Lines and columns decide what
  belongs together, so every character carries its own. All line breaks but
  the Unicode separators are shown as one line feed.
-/

namespace Phrasebook.Yaml

/-- A character, with its line, its column and its number in the text. -/
structure Spot where
  char : Char
  line : Nat
  column : Nat
  index : Nat
  deriving Repr

def charsOf (text : List Spot) : List Char := text.map (·.char)

def isBreak (c : Char) : Bool :=
  c == '\n' || c == '\r' || c == '\u0085' || c == '\u2028' || c == '\u2029'

/-- A character that parts words within a line. -/
def isBlank (c : Char) : Bool := c == ' ' || c == '\t'

/-- A character of anchors, handles and directive names. -/
def isWordChar (c : Char) : Bool := c.isAlphanum || c == '_' || c == '-'

/-- An indicator that ends a plain scalar in a flow collection. -/
def isFlowIndicator (c : Char) : Bool :=
  c == ',' || c == '[' || c == ']' || c == '{' || c == '}'

/-- The characters a text may hold: no control characters but tab, line feed,
carriage return and next line, and no noncharacters of the first plane. -/
def isAllowed (c : Char) : Bool :=
  let n := c.toNat
  c == '\t' || c == '\n' || c == '\r' || n == 0x85 || (0x20 ≤ n && n ≤ 0x7E) ||
    (0xA0 ≤ n && n ≤ 0xFFFD) || 0x10000 ≤ n

structure Place where
  line : Nat := 0
  column : Nat := 0
  index : Nat := 0

def Place.next (p : Place) : Place := ⟨p.line, p.column + 1, p.index + 1⟩

/-- The place behind a line break of so many characters. -/
def Place.nextLine (p : Place) (size : Nat) : Place := ⟨p.line + 1, 0, p.index + size⟩

def Place.spot (p : Place) (c : Char) : Spot := ⟨c, p.line, p.column, p.index⟩

def spotsFrom : List Char → Place → (before : List Spot) → List Spot
  | [], _, before => before.reverse
  | '\r' :: '\n' :: rest, p, before => spotsFrom rest (p.nextLine 2) (p.spot '\n' :: before)
  | c :: rest, p, before =>
    if c == '\u2028' || c == '\u2029' then spotsFrom rest (p.nextLine 1) (p.spot c :: before)
    else if isBreak c then spotsFrom rest (p.nextLine 1) (p.spot '\n' :: before)
    else spotsFrom rest p.next (p.spot c :: before)

/-- The characters of a text, if all are allowed. -/
def spots? (text : List Char) : Option (List Spot) :=
  if text.all isAllowed then some (spotsFrom text {} []) else none

/-- Whether a word ends here: at a blank, a line break or the end. -/
def endsWord : List Spot → Bool
  | [] => true
  | s :: _ => isBlank s.char || isBreak s.char

/-- Whether a document marker stands here: `---` or `...` at the start of a
line and nothing joined to it. -/
def startsMarker : List Spot → Bool
  | a :: b :: c :: rest =>
    a.column == 0 && (a.char == '-' || a.char == '.') && b.char == a.char && c.char == a.char &&
      endsWord rest
  | _ => false

def startsWith (c : Char) : List Spot → Bool
  | [] => false
  | s :: _ => s.char == c

def skipBlanks (text : List Spot) : List Spot := text.dropWhile fun s => isBlank s.char

/-- The rest of a line that holds nothing more but a comment, behind its line
break. -/
def finishLine? (text : List Spot) : Option (List Spot) :=
  let text := skipBlanks text
  let text := if startsWith '#' text then text.dropWhile fun s => !isBreak s.char else text
  match text with
  | [] => some []
  | s :: rest => if isBreak s.char then some rest else none

end Phrasebook.Yaml
