import Std.Data.ExtTreeMap

/-
  Tag maps, and the two layers of them that texts are taken from.

  A map goes from the name of a tag to its text. Two maps with the same entries
  are equal, and entries are listed by name in code point order. Of the two layers
  one is the language's, rebuilt on every switch, and one the user's, which
  outlives switches and hides the language's.

  Correspondence:
    `TagMap`   ↔ `Tags`
    `TagScope` ↔ `Scope`
    `TagStore` ↔ `Layers`; `lookup` ↔ `Layers.lookup`; `merge`, `set_language_tags`,
      `clear_language_tags`, `add_user_tag`, `clear_user_tags` ↔ `Layers.write`
-/

namespace Phrasebook

/-! ## Maps -/

abbrev Tags := Std.ExtTreeMap String String

namespace Tags

/-- The map of a list of entries; of two entries for a name the later wins. -/
def ofPairs (entries : List (String × String)) : Tags := Std.ExtTreeMap.ofList entries

/-- `base` with the entries of `extra` written over it. -/
def merge (base extra : Tags) : Tags := base ∪ extra

end Tags

/-! ## Layers -/

/-- The layer a tag file is loaded into. -/
inductive Scope where
  | language
  | user
  deriving DecidableEq, Repr

/-- How a layer is called in log records. -/
def Scope.label : Scope → String
  | .language => "Language"
  | .user => "User"

structure Layers where
  language : Tags := ∅
  user : Tags := ∅

namespace Layers

/-- The text of a tag; the user's entry comes before the language's. -/
def lookup (l : Layers) (tag : String) : Option String :=
  l.user[tag]?.or l.language[tag]?

inductive Write where
  | merge (scope : Scope) (tags : Tags)
  | setLanguage (tags : Tags)
  | clearLanguage
  | addUser (tag value : String)
  | clearUser

def merge (l : Layers) (scope : Scope) (tags : Tags) : Layers :=
  match scope with
  | .language => { l with language := l.language.merge tags }
  | .user => { l with user := l.user.merge tags }

def write (l : Layers) : Write → Layers
  | .merge scope tags => l.merge scope tags
  | .setLanguage tags => { l with language := tags }
  | .clearLanguage => { l with language := ∅ }
  | .addUser tag value => { l with user := l.user.insert tag value }
  | .clearUser => { l with user := ∅ }

end Layers

end Phrasebook
