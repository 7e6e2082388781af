import Phrasebook.Yaml.Property
import Phrasebook.Yaml.Scalar

/-
  A YAML text as a row of tokens. Indentation becomes tokens that open and
  close blocks.

  Whether a node is a key shows only at the colon behind it, so where a node
  starts its place is noted as a possible key, one for every open flow
  collection and one outside. At the colon the tokens that open the key, and
  the mapping if its indentation is new, are put in at that place. A possible
  key lapses at the end of its line and after 1024 characters. It is required
  where a block mapping goes on, and one that is required may not lapse.
-/

namespace Phrasebook.Yaml

/-- How a scalar is written, as far as its meaning depends on it. -/
inductive Style where
  | plain
  | quoted
  | literal
  | folded
  deriving DecidableEq, Repr

/-- A token. Those of blocks stand for indentation, all others are written. -/
inductive Token where
  | directive (directive : Directive)
  | documentStart
  | documentEnd
  | blockSequence
  | blockMapping
  | blockEnd
  | flowSequence
  | flowSequenceEnd
  | flowMapping
  | flowMappingEnd
  | blockEntry
  | flowEntry
  | key
  | value
  | anchored (name : List Char)
  | alias (name : List Char)
  | tagged (tag : Tag)
  | scalar (text : List Char) (style : Style)
  deriving DecidableEq, Repr

/-- A place where a key may have started: how many tokens came before it. -/
structure Key where
  required : Bool
  number : Nat
  line : Nat
  column : Nat
  index : Nat

/-- How far a text is read: what is left of it, the tokens so far, newest first,
the indentation of the open blocks, innermost first and -1 outside, and the
possible keys, innermost first. -/
structure Scan where
  text : List Spot
  tokens : List Token := []
  count : Nat := 0
  indent : Int := -1
  outer : List Int := []
  key : Option Key := none
  outerKeys : List (Option Key) := []
  keyAllowed : Bool := true

namespace Scan

def inFlow (s : Scan) : Bool := !s.outerKeys.isEmpty

def emit (t : Token) (s : Scan) : Scan :=
  { s with tokens := t :: s.tokens, count := s.count + 1 }

/-- A token put in where `number` tokens had been read. -/
def insert (number : Nat) (t : Token) (s : Scan) : Scan :=
  let newer := s.count - number
  { s with
    tokens := s.tokens.take newer ++ t :: s.tokens.drop newer
    count := s.count + 1 }

/-- Opens a block if `column` is further right than the block open now. -/
def openBlock (column : Nat) (number : Nat) (t : Token) (s : Scan) : Scan :=
  if !s.inFlow && s.indent < column then
    { s with indent := column, outer := s.indent :: s.outer }.insert number t
  else s

/-- Closes the blocks that are further right than `column`, of all in `outer`. -/
def closeBlocksOf (column : Int) : (outer : List Int) → Scan → Scan
  | [], s => { s with outer := [] }
  | i :: outer, s =>
    if column < s.indent then closeBlocksOf column outer ({ s with indent := i }.emit .blockEnd)
    else { s with outer := i :: outer }

def closeBlocks (column : Int) (s : Scan) : Scan :=
  if s.inFlow then s else closeBlocksOf column s.outer s

/-- The key that was possible is one no longer. -/
def dropKey? (s : Scan) : Option Scan :=
  if s.key.any (·.required) then none else some { s with key := none }

/-- A key may start here, if any may. -/
def noteKey? (here : Spot) (s : Scan) : Option Scan :=
  if s.keyAllowed then do
    let required := !s.inFlow && s.indent == here.column
    let s ← s.dropKey?
    some { s with key := some ⟨required, s.count, here.line, here.column, here.index⟩ }
  else some s

def Key.lapsed (here : Option Spot) (k : Key) : Bool :=
  here.all fun s => k.line < s.line || k.index + 1024 < s.index

def dropLapsed? (s : Scan) : Option Scan :=
  let gone (k : Option Key) := k.any (Key.lapsed s.text.head?)
  if (s.key :: s.outerKeys).any fun k => gone k && k.any (·.required) then none
  else
    let kept (k : Option Key) := if gone k then none else k
    some { s with key := kept s.key, outerKeys := s.outerKeys.map kept }

/-- The text behind blanks, comments and line breaks, and whether a key may
start there. Outside flow collections a tab may not stand where a key may. A
byte order mark at the start of a line is passed over, but keeps its column. -/
def skipGap (flow : Bool) : (inComment : Bool) → List Spot → (keyAllowed : Bool) →
    List Spot × Bool
  | _, [], allowed => ([], allowed)
  | inComment, s :: rest, allowed =>
    if isBreak s.char then skipGap flow false rest (allowed || !flow)
    else if inComment then skipGap flow true rest allowed
    else if s.char == ' ' || (s.char == '\t' && (flow || !allowed)) ||
        (s.char == '\uFEFF' && s.column == 0) then
      skipGap flow false rest allowed
    else if s.char == '#' then skipGap flow true rest allowed
    else (s :: rest, allowed)

/-- Stands at the next token. -/
def toToken? (s : Scan) : Option Scan :=
  let (text, keyAllowed) := skipGap s.inFlow false s.text s.keyAllowed
  let s := { s with text, keyAllowed }
  s.dropLapsed?.map fun s =>
    match text with
    | [] => s
    | here :: _ => s.closeBlocks here.column

def take (size : Nat) (t : Token) (s : Scan) : Scan := { s.emit t with text := s.text.drop size }

/-- A token that ends all blocks. -/
def boundary? (s : Scan) : Option Scan :=
  (s.closeBlocks (-1)).dropKey?.map fun s => { s with keyAllowed := false }

def openFlow? (here : Spot) (t : Token) (s : Scan) : Option Scan :=
  (s.noteKey? here).map fun s =>
    { s with key := none, outerKeys := s.key :: s.outerKeys, keyAllowed := true }.take 1 t

def closeFlow? (t : Token) (s : Scan) : Option Scan :=
  s.dropKey?.map fun s =>
    match s.outerKeys with
    | [] => { s with keyAllowed := false }.take 1 t
    | key :: outerKeys => { s with key, outerKeys, keyAllowed := false }.take 1 t

/-- An indicator that opens a block, unless the line has gone on too far. -/
def openBlock? (here : Spot) (t : Token) (s : Scan) : Option Scan :=
  if s.inFlow then some s
  else if s.keyAllowed then some (s.openBlock here.column s.count t)
  else none

def blockEntry? (here : Spot) (s : Scan) : Option Scan := do
  let s ← (← s.openBlock? here .blockSequence).dropKey?
  some ({ s with keyAllowed := true }.take 1 .blockEntry)

def key? (here : Spot) (s : Scan) : Option Scan := do
  let s ← (← s.openBlock? here .blockMapping).dropKey?
  some ({ s with keyAllowed := !s.inFlow }.take 1 .key)

/-- The indicator of a value: what is possible as a key becomes one. -/
def value? (here : Spot) (s : Scan) : Option Scan :=
  match s.key with
  | some k =>
    let s := (s.insert k.number .key).openBlock k.column k.number .blockMapping
    some ({ s with key := none, keyAllowed := false }.take 1 .value)
  | none => do
    let s ← s.openBlock? here .blockMapping
    some ({ s with keyAllowed := !s.inFlow }.take 1 .value)

/-- A token that a key may consist of, with what follows it. -/
def node? (here : Spot) (found : Option (Token × List Spot)) (s : Scan) : Option Scan := do
  let s ← s.noteKey? here
  let (t, text) ← found
  some { { s with keyAllowed := false }.emit t with text }

/-- A plain scalar. Behind its line a key may start. -/
def plainScalar? (here : Spot) (s : Scan) : Option Scan := do
  let s ← s.noteKey? here
  let found ← plain? s.inFlow (s.indent + 1).toNat s.text [] {}
  some { s.emit (.scalar found.text .plain) with text := found.rest, keyAllowed := found.broken }

def blockScalar? (style : Style) (s : Scan) : Option Scan := do
  let s ← s.dropKey?
  let (found, text) ← block? (style == .folded) s.indent (s.text.drop 1)
  some { s.emit (.scalar found style) with text, keyAllowed := true }

def startsPlain (flow : Bool) (c : Char) (rest : List Spot) : Bool :=
  if c == '-' then !(rest.head?.any (isBlank ·.char))
  else if c == '?' || c == ':' then !flow && !endsWord rest
  else !(isFlowIndicator c || "#&*!|>'\"%@\x60".toList.contains c || isBlank c || isBreak c)

def token? (here : Spot) (rest : List Spot) (s : Scan) : Option Scan :=
  let c := here.char
  if here.column == 0 && c == '%' then do
    let s ← s.boundary?
    let (found, text) ← directive? rest
    some { s.emit (.directive found) with text }
  else if startsMarker s.text then
    s.boundary?.map (·.take 3 (if c == '-' then .documentStart else .documentEnd))
  else if c == '[' then s.openFlow? here .flowSequence
  else if c == '{' then s.openFlow? here .flowMapping
  else if c == ']' then s.closeFlow? .flowSequenceEnd
  else if c == '}' then s.closeFlow? .flowMappingEnd
  else if c == ',' then
    s.dropKey?.map fun s => { s with keyAllowed := true }.take 1 .flowEntry
  else if c == '-' && endsWord rest then s.blockEntry? here
  else if c == '?' && (s.inFlow || endsWord rest) then s.key? here
  else if c == ':' && (s.inFlow || endsWord rest) then s.value? here
  else if c == '*' then
    s.node? here ((anchorName? rest).map fun (name, rest) => (.alias name, rest))
  else if c == '&' then
    s.node? here ((anchorName? rest).map fun (name, rest) => (.anchored name, rest))
  else if c == '!' then
    s.node? here ((tag? s.inFlow s.text).map fun (tag, rest) => (.tagged tag, rest))
  else if c == '|' && !s.inFlow then s.blockScalar? .literal
  else if c == '>' && !s.inFlow then s.blockScalar? .folded
  else if c == '\'' then
    s.node? here ((single? rest [] {}).map fun (text, rest) => (.scalar text .quoted, rest))
  else if c == '"' then
    s.node? here ((double? rest [] {}).map fun (text, rest) => (.scalar text .quoted, rest))
  else if startsPlain s.inFlow c rest then s.plainScalar? here
  else none

/-- All tokens of the text left. Every token takes a character, so `fuel` above
their number is enough. -/
def run? : (fuel : Nat) → Scan → Option (List Token)
  | 0, _ => none
  | fuel + 1, s => do
    let s ← s.toToken?
    match s.text with
    | [] => some ((← (s.closeBlocks (-1)).dropKey?).tokens.reverse)
    | here :: rest => run? fuel (← s.token? here rest)

end Scan

def tokens? (text : List Char) : Option (List Token) := do
  let text ← spots? text
  Scan.run? (text.length + 1) { text }

end Phrasebook.Yaml
