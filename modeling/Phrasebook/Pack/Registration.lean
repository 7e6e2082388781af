import Phrasebook.Markup.Element
import Std.Data.ExtTreeMap

/-
  Language packs, and the documents that declare them.

  A pack has the names of the tag files of a registered language, in the order
  they were registered. Languages are listed in code point order.

  Under the root of a document stand `Language` elements, in them `Info` elements,
  in them `Source` elements whose content names a file. The attribute `name` of the
  `Info` is the language; without one, or with an empty one, its files are the
  user's. The last attribute `default` of a `Language` decides on the preferred
  language; an empty one takes the preference back.

  Correspondence:
    `LanguagePackRegistry` ↔ `Packs`; `add_source` ↔ `Packs.add`; `sources`,
      `contains` ↔ `Packs.files?`
    `SourceDecl`           ↔ `Registration.Entry`
    `PackDeclarations`     ↔ `Registration`
    `read_declarations`    ↔ `Registration.ofElement`
-/

namespace Phrasebook

/-! ## Packs -/

abbrev Packs := Std.ExtTreeMap String (List String)

namespace Packs

def files? (p : Packs) (language : String) : Option (List String) := p[language]?

/-- One more file at the end of a language's pack, which is made if need be. -/
def add (p : Packs) (language file : String) : Packs :=
  p.insert language ((p.files? language).getD [] ++ [file])

end Packs

/-! ## Documents -/

inductive Registration.Entry where
  | user (file : String)
  | pack (language file : String)
  deriving DecidableEq, Repr

/-- What a document declares, in document order. -/
structure Registration where
  entries : List Registration.Entry := []
  preferred : Option String := none
  deriving DecidableEq, Repr

namespace Registration

/-- The entry for a file under an `Info` with the given name. -/
def Entry.under (name file : String) : Entry :=
  if name = "" then .user file else .pack name file

def infoEntries (info : Markup.Element) : List Entry :=
  let name := (info.attribute? "name").getD ""
  (info.named "Source").map fun source => .under name source.content

def languageEntries (language : Markup.Element) : List Entry :=
  (language.named "Info").flatMap infoEntries

def prefer (before : Option String) (language : Markup.Element) : Option String :=
  match language.attribute? "default" with
  | none => before
  | some name => if name = "" then none else some name

def ofElement (root : Markup.Element) : Registration where
  entries := (root.named "Language").flatMap languageEntries
  preferred := (root.named "Language").foldl prefer none

/-- The files that the entries add to a language's pack, in order. -/
def packFiles (entries : List Entry) (language : String) : List String :=
  entries.filterMap fun
    | .pack l file => if l = language then some file else none
    | .user _ => none

/-- The files that the entries give to the user, in order. -/
def userFiles (entries : List Entry) : List String :=
  entries.filterMap fun
    | .user file => some file
    | .pack .. => none

end Registration

end Phrasebook
