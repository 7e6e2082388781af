import Phrasebook.Text.Basic
import Phrasebook.Yaml.Spot

/-
  What may stand before a node or a document besides layout: anchors, tags and
  directives.
-/

namespace Phrasebook.Yaml

def word (text : List Spot) : List Char × List Spot :=
  (charsOf (text.takeWhile (isWordChar ·.char)), text.dropWhile (isWordChar ·.char))

def anchorName? (text : List Spot) : Option (List Char × List Spot) :=
  let (name, rest) := word text
  if name.isEmpty then none
  else if endsWord rest || rest.head?.any fun s => "?:,]\x7d%@\x60".toList.contains s.char then
    some (name, rest)
  else none

/-- The characters of tags besides those of words. -/
def isTagChar (c : Char) : Bool :=
  isWordChar c || ";/?:@&=+$.!~*'()".toList.contains c

/-- How many bytes follow a leading byte of UTF-8. -/
def followers? (byte : Nat) : Option Nat :=
  if byte < 0x80 then some 0
  else if byte < 0xC0 then none
  else if byte < 0xE0 then some 1
  else if byte < 0xF0 then some 2
  else if byte < 0xF8 then some 3
  else none

/-- Reads the text of a tag on. Escaped bytes stand as characters of the same
number; `missing` of them have to follow. -/
def tagText? (verbatim : Bool) :
    List Spot → (missing : Nat) → (out : List Char) → Option (List Char × List Spot)
  | [], missing, out => if missing = 0 then some (out.reverse, []) else none
  | s :: rest, missing, out =>
    if s.char == '%' then
      match rest with
      | a :: b :: after =>
        match Text.number? 16 [a.char, b.char] with
        | none => none
        | some byte =>
          match missing with
          | 0 => (followers? byte).bind fun n =>
            tagText? verbatim after n (Char.ofNat byte :: out)
          | more + 1 =>
            if 0x80 ≤ byte ∧ byte < 0xC0 then
              tagText? verbatim after more (Char.ofNat byte :: out)
            else none
      | _ => none
    else if missing != 0 then none
    else if isTagChar s.char ||
        (verbatim && (s.char == ',' || s.char == '[' || s.char == ']')) then
      tagText? verbatim rest 0 (s.char :: out)
    else some (out.reverse, s :: rest)

/-- A tag is a handle and a suffix; verbatim tags have no handle. -/
structure Tag where
  handle : List Char
  suffix : List Char
  deriving DecidableEq, Repr

/-- A handle: `!`, `!word!`, or `!word`, which is none but the start of a
suffix. -/
def handle? (text : List Spot) : Option (List Char × List Spot) :=
  match text with
  | [] => none
  | s :: rest =>
    if s.char != '!' then none
    else
      let (name, rest) := word rest
      match rest with
      | [] => some ('!' :: name, [])
      | t :: after =>
        if t.char == '!' then some ('!' :: name ++ ['!'], after)
        else some ('!' :: name, t :: after)

def tag? (flow : Bool) (text : List Spot) : Option (Tag × List Spot) := do
  let (tag, rest) ←
    if startsWith '<' (text.drop 1) then do
      let (suffix, rest) ← tagText? true (text.drop 2) 0 []
      if suffix.isEmpty || !startsWith '>' rest then none
      else some (⟨[], suffix⟩, rest.drop 1)
    else do
      let (head, rest) ← handle? text
      if 1 < head.length ∧ head.getLast? = some '!' then
        let (suffix, rest) ← tagText? false rest 0 []
        if suffix.isEmpty then none else some (⟨head, suffix⟩, rest)
      else
        let (more, rest) ← tagText? false rest 0 []
        let suffix := head.drop 1 ++ more
        if suffix.isEmpty then some (⟨[], ['!']⟩, rest) else some (⟨['!'], suffix⟩, rest)
  if endsWord rest || (flow && startsWith ',' rest) then some (tag, rest) else none

/-- A directive of a document: its version, or the meaning of a handle. -/
inductive Directive where
  | version (major minor : Nat)
  | tag (handle : List Char) (stem : List Char)
  deriving DecidableEq, Repr

/-- The number at the start of a text, of at most nine digits. -/
def shortNumber? (text : List Spot) : Option (Nat × List Spot) :=
  let digits := charsOf (text.takeWhile (·.char.isDigit))
  if 9 < digits.length then none
  else (Text.number? 10 digits).map fun n => (n, text.dropWhile (·.char.isDigit))

def directive? (text : List Spot) : Option (Directive × List Spot) := do
  let (name, rest) := word text
  if name.isEmpty || !endsWord rest then none
  else
    let rest := skipBlanks rest
    let (directive, rest) ←
      if name = "YAML".toList then do
        let (major, rest) ← shortNumber? rest
        if !startsWith '.' rest then none
        else
          let (minor, rest) ← shortNumber? (rest.drop 1)
          some (Directive.version major minor, rest)
      else if name = "TAG".toList then do
        let (handle, rest) ← handle? rest
        if handle.getLast? != some '!' || !(rest.head?.any (isBlank ·.char)) then none
        else
          let (stem, rest) ← tagText? true (skipBlanks rest) 0 []
          if stem.isEmpty || !endsWord rest then none
          else some (Directive.tag handle stem, rest)
      else none
    some (directive, ← finishLine? rest)

end Phrasebook.Yaml
