import Phrasebook.Markup.Element
import Phrasebook.Tags.Layers
import Phrasebook.Text.Utf8

/-
  Tag files, in two formats; the name of a file alone decides which.

  A file of lines has a name, one space or tab, and the text of the tag as it
  stands on each line; without a separator the text is empty. A byte order mark at
  the start of any line and one carriage return at its end are dropped, and a line
  with nothing else on it is skipped. Bytes that are not UTF-8 are shown as U+FFFD.

  In a file of markup each `Tag` directly under the root is an entry, its attribute
  `name` the name, empty where there is none, and its content the text.

  Correspondence:
    `SourceFormat`   ↔ `TagFile.Format`; `from_file_name` ↔ `Format.ofName`;
      `parse` ↔ `Format.read`
    `parse_markup`   ↔ `TagFile.ofMarkup`
    `parse_legacy`   ↔ `TagFile.ofLines`
-/

namespace Phrasebook.TagFile

/-! ## Lines -/

def lineFeed : UInt8 := 10

/-- The lines of a file, without the line feeds between them. -/
def lines (bytes : List UInt8) : List (List UInt8) :=
  go bytes [] []
where
  go : List UInt8 → (line : List UInt8) → (before : List (List UInt8)) → List (List UInt8)
    | [], line, before => (line.reverse :: before).reverse
    | b :: rest, line, before =>
      if b = lineFeed then go rest [] (line.reverse :: before) else go rest (b :: line) before

/-- The line without a byte order mark at its start. -/
def dropMark : List UInt8 → List UInt8
  | 0xEF :: 0xBB :: 0xBF :: rest => rest
  | line => line

/-- The line without one carriage return at its end. -/
def dropReturn (line : List UInt8) : List UInt8 :=
  if line.getLast? = some 13 then line.dropLast else line

/-- What ends the name of a tag. -/
def isSeparator (c : Char) : Bool := c == ' ' || c == '\t'

def entryOf (line : List Char) : String × String :=
  (String.ofList (line.takeWhile (!isSeparator ·)),
    String.ofList ((line.dropWhile (!isSeparator ·)).drop 1))

/-- The entry of a line, if there is anything on it. -/
def linePair? (line : List UInt8) : Option (String × String) :=
  let line := dropReturn (dropMark line)
  if line.isEmpty then none else some (entryOf (Utf8.lossy line))

def lineEntries (bytes : List UInt8) : List (String × String) :=
  (lines bytes).filterMap linePair?

def ofLines (bytes : List UInt8) : Tags := Tags.ofPairs (lineEntries bytes)

/-! ## Markup -/

def entryOfElement (e : Markup.Element) : String × String :=
  ((e.attribute? "name").getD "", e.content)

def elementEntries (root : Markup.Element) : List (String × String) :=
  (root.named "Tag").map entryOfElement

def ofElement (root : Markup.Element) : Tags := Tags.ofPairs (elementEntries root)

def ofMarkup (bytes : List UInt8) : Except Markup.Fault Tags :=
  (Markup.Element.ofBytes bytes).map ofElement

/-! ## Formats -/

inductive Format where
  | markup
  | lines
  deriving DecidableEq, Repr

/-- A name with `.xml` anywhere in it is a markup file's. -/
def Format.ofName (file : String) : Format :=
  if Markup.holds ".xml".toList file.toList then .markup else .lines

def Format.read (format : Format) (bytes : List UInt8) : Except Markup.Fault Tags :=
  match format with
  | .markup => ofMarkup bytes
  | .lines => .ok (ofLines bytes)

end Phrasebook.TagFile
