import Phrasebook.Text.Basic
import Phrasebook.Yaml.Token

/-
  The node of a YAML document, and the values that settings take from nodes.

  A node is a scalar, a sequence, a mapping, or an alias of a node with an anchor. A
  text is one document at most; one without any content is an empty scalar.

  An anchor has a number: how many names were in use for anchors before it. An
  alias stands for the number that its name had last, and a number for the node
  that got it last in the whole document. So a node may stand for itself inside
  itself, and where a name is used again the next new name takes over from it.

  Any scalar is a text; truth values, numbers and the absence of a value have to be
  written plainly, or as a literal block with the tag of their kind. An empty plain
  scalar is also an empty list and an empty mapping. An alias is followed where its
  value is asked for, and nowhere else.
-/

namespace Phrasebook.Yaml

/-! ## Nodes -/

/-- A node. Scalars keep how they were written and the tag they had. -/
inductive Node where
  | scalar (text : String) (style : Style) (tag : Option String)
  | sequence (items : List Node)
  | mapping (entries : List (Node × Node))
  | alias (number : Nat)
  deriving Repr

/-- The node that stands where nothing is written. -/
def Node.blank (tag : Option String) : Node := .scalar "" .plain tag

abbrev Handles := List (List Char × List Char)

def defaultHandles : Handles :=
  [(['!'], ['!']), (['!', '!'], "tag:yaml.org,2002:".toList)]

/-- The part of a tag that counts: what stands before the first NUL. -/
def beforeNul (text : List Char) : List Char := text.takeWhile (· != '\x00')

/-- The full text of a tag, if its handle is known. -/
def Tag.full? (handles : Handles) (t : Tag) : Option String :=
  if t.handle.isEmpty then some (String.ofList (beforeNul t.suffix))
  else (handles.lookup t.handle).map fun stem =>
    String.ofList (beforeNul stem ++ beforeNul t.suffix)

/-- A node with an anchor, the number of the anchor, and how many nodes with an
anchor start before it. -/
structure Anchored where
  number : Nat
  order : Nat
  node : Node
  deriving Repr

/-- A document: its node, and what the numbers of anchors stand for. -/
structure Document where
  root : Node
  anchored : List Anchored := []
  deriving Repr

/-- What a node stands for in a document: an alias for the node of its number. -/
def Document.target (d : Document) : Node → Node
  | .alias number =>
    match d.anchored.find? (·.number == number) with
    | some a => a.node
    | none => .blank none
  | node => node

/-- How far a document is read: the tokens left, the names of anchors with their
numbers, how many nodes with an anchor have started, and those that are known. -/
structure Reading where
  tokens : List Token
  numbers : List (List Char × Nat) := []
  started : Nat := 0
  anchored : List Anchored := []

def Reading.skip (r : Reading) : Reading := { r with tokens := r.tokens.drop 1 }

/-- The start of a node: the number and the order of its anchor, if it has one. -/
def Reading.start (r : Reading) (anchor : Option (List Char)) : Option (Nat × Nat) × Reading :=
  match anchor with
  | none => (none, r)
  | some name =>
    let number := r.numbers.length
    (some (number, r.started), { r with
      numbers := (name, number) :: r.numbers.filter (·.1 != name)
      started := r.started + 1 })

/-- The end of a node. Of two nodes with one number the one that started later
is known by it. -/
def Reading.note (r : Reading) (mark : Option (Nat × Nat)) (node : Node) : Node × Reading :=
  match mark with
  | none => (node, r)
  | some (number, order) =>
    if r.anchored.any fun a => a.number == number && order < a.order then (node, r)
    else (node, { r with anchored := ⟨number, order, node⟩ :: r.anchored })

/-- The anchor and the tag that a node starts with, in either order. -/
def Reading.properties (r : Reading) : Option (List Char) × Option Tag × Reading :=
  match r.tokens with
  | .anchored a :: .tagged t :: rest => (some a, some t, { r with tokens := rest })
  | .tagged t :: .anchored a :: rest => (some a, some t, { r with tokens := rest })
  | .anchored a :: rest => (some a, none, { r with tokens := rest })
  | .tagged t :: rest => (none, some t, { r with tokens := rest })
  | _ => (none, none, r)

/-- Whether the next token is one of a kind, or there is none. -/
def Reading.atEndOr (r : Reading) (stops : List Token) : Bool :=
  match r.tokens with
  | [] => true
  | t :: _ => stops.contains t

mutual
/-- A node. In the block context collections may be written in blocks, and after
a key also a sequence without indentation. -/
def node? (handles : Handles) : (fuel : Nat) → (block afterKey : Bool) → Reading →
    Option (Node × Reading)
  | 0, _, _, _ => none
  | fuel + 1, block, afterKey, r =>
    match r.tokens with
    | .alias name :: _ => (r.numbers.lookup name).map fun number => (.alias number, r.skip)
    | _ => do
      let (anchor, written, r) := r.properties
      let (mark, r) := r.start anchor
      let tag ← match written with
        | none => some none
        | some t => (t.full? handles).map some
      match r.tokens with
      | .blockEntry :: _ =>
        if afterKey then
          let (items, r) ← entries? handles fuel false r []
          some (r.note mark (.sequence items))
        else if written.isSome || anchor.isSome then some (r.note mark (.blank tag))
        else none
      | .scalar text style :: _ =>
        some (r.skip.note mark (.scalar (String.ofList text) style tag))
      | .flowSequence :: _ =>
        let (items, r) ← flowItems? handles fuel true r.skip []
        some (r.note mark (.sequence items))
      | .flowMapping :: _ =>
        let (entries, r) ← flowEntries? handles fuel true r.skip []
        some (r.note mark (.mapping entries))
      | t :: _ =>
        if block && t == .blockSequence then
          let (items, r) ← entries? handles fuel true r.skip []
          some (r.note mark (.sequence items))
        else if block && t == .blockMapping then
          let (entries, r) ← mapping? handles fuel r.skip []
          some (r.note mark (.mapping entries))
        else if written.isSome || anchor.isSome then some (r.note mark (.blank tag))
        else none
      | [] =>
        if written.isSome || anchor.isSome then some (r.note mark (.blank tag)) else none

/-- A node, or an empty one before the tokens `stops`. -/
def nodeUnless? (handles : Handles) : (fuel : Nat) → (block afterKey : Bool) →
    (stops : List Token) → Reading → Option (Node × Reading)
  | 0, _, _, _, _ => none
  | fuel + 1, block, afterKey, stops, r =>
    if r.atEndOr stops then some (.blank none, r) else node? handles fuel block afterKey r

/-- The entries of a block sequence, which ends with its block if it has one of
its own. -/
def entries? (handles : Handles) : (fuel : Nat) → (own : Bool) → Reading → List Node →
    Option (List Node × Reading)
  | 0, _, _, _ => none
  | fuel + 1, own, r, before =>
    match r.tokens with
    | .blockEntry :: _ => do
      let stops := if own then [.blockEntry, .blockEnd] else [.blockEntry, .key, .value, .blockEnd]
      let (item, r) ← nodeUnless? handles fuel true false stops r.skip
      entries? handles fuel own r (item :: before)
    | .blockEnd :: _ => some (before.reverse, if own then r.skip else r)
    | _ => if own then none else some (before.reverse, r)

def mapping? (handles : Handles) : (fuel : Nat) → Reading → List (Node × Node) →
    Option (List (Node × Node) × Reading)
  | 0, _, _ => none
  | fuel + 1, r, before =>
    let stops := [.key, .value, .blockEnd]
    match r.tokens with
    | .key :: _ => do
      let (key, r) ← nodeUnless? handles fuel true true stops r.skip
      match r.tokens with
      | .value :: _ =>
        let (value, r) ← nodeUnless? handles fuel true true stops r.skip
        mapping? handles fuel r ((key, value) :: before)
      | _ => mapping? handles fuel r ((key, .blank none) :: before)
    | .blockEnd :: _ => some (before.reverse, r.skip)
    | _ => none

/-- The items of a flow sequence. An item with a key is a mapping of one entry. -/
def flowItems? (handles : Handles) : (fuel : Nat) → (first : Bool) → Reading → List Node →
    Option (List Node × Reading)
  | 0, _, _, _ => none
  | fuel + 1, first, r, before =>
    match r.tokens with
    | .flowSequenceEnd :: _ => some (before.reverse, r.skip)
    | t :: _ =>
      if !first && t != .flowEntry then none
      else
        let r := if first then r else r.skip
        match r.tokens with
        | .flowSequenceEnd :: _ => some (before.reverse, r.skip)
        | .key :: _ => do
          let (item, r) ← flowPair? handles fuel r.skip
          flowItems? handles fuel false r (item :: before)
        | _ => do
          let (item, r) ← node? handles fuel false false r
          flowItems? handles fuel false r (item :: before)
    | [] => none

/-- A mapping of one entry in a flow sequence, behind the indicator of its key.
An indicator in place of the key is passed over. -/
def flowPair? (handles : Handles) : (fuel : Nat) → Reading → Option (Node × Reading)
  | 0, _ => none
  | fuel + 1, r => do
    let (key, r) ←
      if r.atEndOr [.value, .flowEntry, .flowSequenceEnd] then some (Node.blank none, r.skip)
      else node? handles fuel false false r
    match r.tokens with
    | .value :: _ =>
      let (value, r) ←
        nodeUnless? handles fuel false false [.flowEntry, .flowSequenceEnd] r.skip
      some (.mapping [(key, value)], r)
    | _ => some (.mapping [(key, .blank none)], r)

def flowEntries? (handles : Handles) : (fuel : Nat) → (first : Bool) → Reading →
    List (Node × Node) → Option (List (Node × Node) × Reading)
  | 0, _, _, _ => none
  | fuel + 1, first, r, before =>
    match r.tokens with
    | .flowMappingEnd :: _ => some (before.reverse, r.skip)
    | t :: _ =>
      if !first && t != .flowEntry then none
      else
        let r := if first then r else r.skip
        match r.tokens with
        | .flowMappingEnd :: _ => some (before.reverse, r.skip)
        | .key :: _ => do
          let (key, r) ←
            nodeUnless? handles fuel false false [.value, .flowEntry, .flowMappingEnd] r.skip
          match r.tokens with
          | .value :: _ =>
            let (value, r) ←
              nodeUnless? handles fuel false false [.flowEntry, .flowMappingEnd] r.skip
            flowEntries? handles fuel false r ((key, value) :: before)
          | _ => flowEntries? handles fuel false r ((key, .blank none) :: before)
        | _ => do
          let (key, r) ← node? handles fuel false false r
          flowEntries? handles fuel false r ((key, .blank none) :: before)
    | [] => none
end

/-- The handles that the directives of a document declare. A second version and
a second declaration of a handle are refused, and so are unknown versions. -/
def handles? : List Directive → (versioned : Bool) → Handles → Option Handles
  | [], _, handles => some (handles ++ defaultHandles)
  | .version major minor :: rest, versioned, handles =>
    if versioned || major != 1 || (minor != 1 && minor != 2) then none
    else handles? rest true handles
  | .tag handle stem :: rest, versioned, handles =>
    if (handles.lookup handle).isSome then none
    else handles? rest versioned ((handle, stem) :: handles)

/-- The directives at the start, and the tokens behind them. -/
def directives : List Token → List Directive × List Token
  | .directive d :: rest =>
    let (more, rest) := directives rest
    (d :: more, rest)
  | rest => ([], rest)

/-- The document of a row of tokens. Every call takes a token or passes on to one
that does, so four times their number is fuel enough. -/
def Document.ofTokens? (tokens : List Token) : Option Document := do
  let (written, rest) := directives tokens
  let handles ← handles? written false []
  let fuel := 4 * tokens.length + 4
  let (root, r) ←
    match rest with
    | .documentStart :: rest =>
      if Reading.atEndOr { tokens := rest } [.documentStart, .documentEnd] then
        some (Node.blank none, { tokens := rest })
      else node? handles fuel true false { tokens := rest }
    | [] => if written.isEmpty then some (Node.blank none, { tokens := [] }) else none
    | rest =>
      if written.isEmpty then node? handles fuel true false { tokens := rest } else none
  if r.tokens.all (· == .documentEnd) then some ⟨root, r.anchored⟩ else none

def Document.ofText? (text : List Char) : Option Document :=
  (tokens? text).bind Document.ofTokens?

/-! ## Values -/

/-- The full text of a tag that every document knows. -/
def standardTag (kind : String) : String := "tag:yaml.org,2002:" ++ kind

namespace Node

def text? : Node → Option String
  | .scalar text _ _ => some text
  | _ => none

/-- The text of a scalar that may stand for something other than itself. -/
def bare? (kind : String) : Node → Option String
  | .scalar text .plain _ => some text
  | .scalar text .literal tag => if tag = some (standardTag kind) then some text else none
  | _ => none

def flag? (n : Node) : Option Bool :=
  match n.bare? "bool" with
  | none => none
  | some text =>
    if ["true", "True", "TRUE"].contains text then some true
    else if ["false", "False", "FALSE"].contains text then some false
    else none

/-- The digits behind the mark of a numeral system. -/
def markedNumber? (digits : List Char) : Option Nat :=
  match digits with
  | '0' :: 'x' :: digits => Text.number? 16 digits
  | '0' :: 'o' :: digits => Text.number? 8 digits
  | '0' :: 'b' :: digits => Text.number? 2 digits
  | _ => none

/-- A decimal number, which has no zeros before its first digit. -/
def decimal? (digits : List Char) : Option Nat :=
  if 1 < digits.length ∧ digits.head? = some '0' then none else Text.number? 10 digits

/-- A number of 64 bits without a sign, but for a `+`. -/
def count? (n : Node) : Option Nat :=
  match n.bare? "int" with
  | none => none
  | some text =>
    let digits := match text.toList with
      | '+' :: digits => digits
      | digits => digits
    ((markedNumber? digits).or (decimal? digits)).filter (· < UInt64.size)

/-- The ways to write that there is no value. -/
def isNull (text : String) : Bool := ["~", "null", "Null", "NULL"].contains text

/-- A value that may be absent. The tag for absence allows nothing else. -/
def optional? {α : Type} (read : Node → Option α) : Node → Option (Option α)
  | .scalar text .plain tag =>
    if tag = some (standardTag "null") then if isNull text then some none else none
    else if tag.isNone ∧ (text = "" ∨ isNull text) then some none
    else (read (.scalar text .plain tag)).map some
  | n => (read n).map some

end Node

def Document.list? {α : Type} (d : Document) (read : Node → Option α) : Node → Option (List α)
  | .sequence items => items.mapM fun item => read (d.target item)
  | .scalar text .plain _ => if text = "" then some [] else none
  | _ => none

/-- The entries of a mapping, whose keys are read as texts. The values are no
aliases any more. -/
abbrev Fields := List (String × Node)

def Document.fields? (d : Document) : Node → Option Fields
  | .mapping entries => entries.mapM fun (key, value) =>
    (d.target key).text?.map fun name => (name, d.target value)
  | .scalar text .plain _ => if text = "" then some [] else none
  | _ => none

/-- The value of a field, or the default if it is missing. A field that is given
twice is refused. -/
def Fields.read? {α : Type} (f : Fields) (name : String) (read : Node → Option α) (default : α) :
    Option α :=
  match f.filter (·.1 == name) with
  | [] => some default
  | [(_, value)] => read value
  | _ => none

end Phrasebook.Yaml
