import Phrasebook.Text.Basic
import Phrasebook.Yaml.Spot

/-
  Scalars: plain ones and those in quotes, which are written on one line or folded
  over several, and those in blocks.

  Between two words of a scalar stands a gap. Blanks alone stay as they are. A
  gap with line breaks loses its blanks: one break becomes a space, of several
  the first is dropped. A Unicode separator is never folded.

  A block starts with `|` or `>`, at most one digit for the indentation and one sign
  for the end of the text; the lines below with that indentation are the text. Behind
  `>` lines are folded: a break between two lines that do not start with a blank is a
  space, or nothing if empty lines follow it.
-/

namespace Phrasebook.Yaml

/-! ## Plain and quoted scalars -/

/-- The blanks and line breaks between two words, newest first. `broken` says
that there was a line break; `first` is none if that break was escaped. -/
structure Gap where
  blanks : List Char := []
  broken : Bool := false
  first : Option Char := none
  later : List Char := []

namespace Gap

/-- A blank more. At the start of a line blanks are indentation. -/
def addBlank (g : Gap) (c : Char) : Gap :=
  if g.broken then g else { g with blanks := c :: g.blanks }

def addBreak (g : Gap) (c : Char) : Gap :=
  if g.broken then { g with later := c :: g.later } else ⟨[], true, some c, []⟩

/-- The gap that an escaped line break starts. -/
def escaped : Gap := ⟨[], true, none, []⟩

/-- What the gap adds to the text, newest character first. -/
def reversed (g : Gap) : List Char :=
  if g.broken then
    match g.first with
    | none => g.later
    | some c =>
      if c == '\n' then if g.later.isEmpty then [' '] else g.later else g.later ++ [c]
  else g.blanks

end Gap

/-- A plain scalar as it was read: its text, whether lines end behind it, and
what follows these. -/
structure Plain where
  text : List Char
  broken : Bool
  rest : List Spot

/-- Reads a plain scalar on. It ends at a comment, at a colon before a blank, at
a document marker, and before a line indented by less than `indent`; in a flow
collection also at a flow indicator. -/
def plain? (flow : Bool) (indent : Nat) :
    List Spot → (out : List Char) → Gap → Option Plain
  | [], out, gap => some ⟨out.reverse, gap.broken, []⟩
  | s :: rest, out, gap =>
    if isBlank s.char then
      if gap.broken && s.char == '\t' && s.column < indent then none
      else plain? flow indent rest out (gap.addBlank s.char)
    else if isBreak s.char then plain? flow indent rest out (gap.addBreak s.char)
    else if (gap.broken && !flow && s.column < indent) || startsMarker (s :: rest) ||
        (s.char == '#' && (gap.broken || !gap.blanks.isEmpty)) ||
        (s.char == ':' && endsWord rest) || (flow && isFlowIndicator s.char) then
      some ⟨out.reverse, gap.broken, s :: rest⟩
    else if flow && s.char == ':' &&
        (rest.head?.any fun t => t.char == '?' || isFlowIndicator t.char) then none
    else plain? flow indent rest (s.char :: (gap.reversed ++ out)) {}

/-- Reads on in single quotes. Two of them stand for one. -/
def single? : List Spot → (out : List Char) → Gap → Option (List Char × List Spot)
  | [], _, _ => none
  | s :: rest, out, gap =>
    if startsMarker (s :: rest) then none
    else if isBlank s.char then single? rest out (gap.addBlank s.char)
    else if isBreak s.char then single? rest out (gap.addBreak s.char)
    else if s.char == '\'' then
      match rest with
      | [] => some ((gap.reversed ++ out).reverse, [])
      | t :: after =>
        if t.char == '\'' then single? after ('\'' :: (gap.reversed ++ out)) {}
        else some ((gap.reversed ++ out).reverse, t :: after)
    else single? rest (s.char :: (gap.reversed ++ out)) {}

/-- The character that a letter behind a backslash stands for. -/
def escape? : Char → Option Char
  | '0' => some '\x00'
  | 'a' => some '\x07'
  | 'b' => some '\x08'
  | 't' => some '\t'
  | '\t' => some '\t'
  | 'n' => some '\n'
  | 'v' => some '\x0B'
  | 'f' => some '\x0C'
  | 'r' => some '\r'
  | 'e' => some '\x1B'
  | ' ' => some ' '
  | '"' => some '"'
  | '/' => some '/'
  | '\\' => some '\\'
  | 'N' => some '\u0085'
  | '_' => some '\u00A0'
  | 'L' => some '\u2028'
  | 'P' => some '\u2029'
  | _ => none

/-- How many hexadecimal digits follow a letter behind a backslash. -/
def escapeDigits? : Char → Option Nat
  | 'x' => some 2
  | 'u' => some 4
  | 'U' => some 8
  | _ => none

def character? (n : Nat) : Option Char := if n.isValidChar then some (Char.ofNat n) else none

/-- Reads on in double quotes. A backslash at the end of a line joins the next
line without a space. -/
def double? (text : List Spot) (out : List Char) (gap : Gap) :
    Option (List Char × List Spot) :=
  match text with
  | [] => none
  | s :: rest =>
    if startsMarker (s :: rest) then none
    else if isBlank s.char then double? rest out (gap.addBlank s.char)
    else if isBreak s.char then double? rest out (gap.addBreak s.char)
    else if s.char == '"' then some ((gap.reversed ++ out).reverse, rest)
    else if s.char == '\\' then
      match rest with
      | [] => none
      | t :: after =>
        if isBreak t.char then double? after (gap.reversed ++ out) .escaped
        else match escapeDigits? t.char with
          | none =>
            match escape? t.char with
            | none => none
            | some c => double? after (c :: (gap.reversed ++ out)) {}
          | some size =>
            if after.length < size then none
            else match (Text.number? 16 (charsOf (after.take size))).bind character? with
              | none => none
              | some c => double? (after.drop size) (c :: (gap.reversed ++ out)) {}
    else double? rest (s.char :: (gap.reversed ++ out)) {}
termination_by text.length
decreasing_by
  all_goals simp only [List.length_cons, List.length_drop]
  all_goals omega

/-! ## Block scalars -/

/-- What becomes of the line breaks at the end of a block scalar. -/
inductive Chomp where
  | strip
  | clip
  | keep
  deriving DecidableEq, Repr

def Chomp.ofSign? : Char → Option Chomp
  | '-' => some .strip
  | '+' => some .keep
  | _ => none

/-- The sign at the start of a header, if there is one. -/
def takeSign (text : List Spot) : Option Chomp × List Spot :=
  match text with
  | [] => (none, [])
  | s :: rest =>
    match Chomp.ofSign? s.char with
    | some chomp => (some chomp, rest)
    | none => (none, text)

/-- The digit at the start of a header, 0 if there is none. A zero is refused. -/
def takeDigit? (text : List Spot) : Option (Nat × List Spot) :=
  match text with
  | [] => some (0, [])
  | s :: rest =>
    if s.char == '0' then none
    else if s.char.isDigit then some (s.char.toNat - '0'.toNat, rest)
    else some (0, text)

/-- A header, sign and digit in either order, with the lines below it. -/
def blockHeader? (text : List Spot) : Option (Chomp × Nat × List Spot) := do
  let (sign, text) := takeSign text
  let (digit, text) ← takeDigit? text
  let (sign, text) := if sign.isNone && digit != 0 then takeSign text else (sign, text)
  let text ← finishLine? text
  some (sign.getD .clip, digit, text)

/-- The empty lines and the indentation up to a column; without a `limit` any
number of spaces is indentation. Yields the breaks, newest first, the widest
indentation and the text behind. A tab in the indentation is refused. -/
def blockBreaks? (limit : Option Nat) :
    List Spot → (breaks : List Char) → (widest : Nat) → Option (List Char × Nat × List Spot)
  | [], breaks, widest => some (breaks, widest, [])
  | s :: rest, breaks, widest =>
    let inside := limit.all (s.column < ·)
    if inside && s.char == ' ' then blockBreaks? limit rest breaks widest
    else if inside && s.char == '\t' then none
    else if isBreak s.char then
      blockBreaks? limit rest (s.char :: breaks) (max widest s.column)
    else some (breaks, max widest s.column, s :: rest)

theorem blockBreaks?_length {limit : Option Nat} {text rest : List Spot}
    {breaks found : List Char} {widest w : Nat}
    (h : blockBreaks? limit text breaks widest = some (found, w, rest)) :
    rest.length ≤ text.length := by
  induction text generalizing breaks widest with
  | nil =>
    simp only [blockBreaks?, Option.some.injEq, Prod.mk.injEq] at h
    simp [← h.2.2]
  | cons s tail ih =>
    simp only [blockBreaks?] at h
    split at h
    · exact Nat.le_succ_of_le (ih h)
    · split at h
      · simp at h
      · split at h
        · exact Nat.le_succ_of_le (ih h)
        · simp only [Option.some.injEq, Prod.mk.injEq] at h
          exact Nat.le_of_eq (by rw [← h.2.2])

/-- The text of the lines so far, newest character first, with the breaks that
follow it: the one that ended its last line, and those of the empty lines. -/
structure Lines where
  out : List Char := []
  ended : List Char := []
  empty : List Char := []
  indented : Bool := false

def Lines.add (folded : Bool) (l : Lines) (line : List Char) : Lines :=
  let indented := line.head?.any isBlank
  let joint :=
    if folded && l.ended == ['\n'] && !l.indented && !indented then
      if l.empty.isEmpty then [' '] else []
    else l.ended
  ⟨line.reverse ++ (l.empty ++ (joint ++ l.out)), [], [], indented⟩

/-- The text, with the breaks at its end that are to stay. -/
def Lines.text (l : Lines) : Chomp → List Char
  | .strip => l.out.reverse
  | .clip => (l.ended ++ l.out).reverse
  | .keep => (l.empty ++ (l.ended ++ l.out)).reverse

/-- Reads on, line by line, as long as lines have the indentation. -/
def blockLines? (folded : Bool) (indent : Nat) (text : List Spot) (l : Lines) :
    Option (Lines × List Spot) :=
  if text.head?.all (·.column != indent) then some (l, text)
  else
    let l := l.add folded (text.takeWhile (!isBreak ·.char) |>.map (·.char))
    match h : text.dropWhile (!isBreak ·.char) with
    | [] => some (l, [])
    | b :: rest =>
      match h' : blockBreaks? (some indent) rest [] 0 with
      | none => none
      | some (breaks, _, next) =>
        have : next.length < text.length := by
          have hn := blockBreaks?_length h'
          exact Nat.lt_of_le_of_lt hn (Text.length_lt_of_dropWhile_eq h)
        blockLines? folded indent next { l with ended := [b.char], empty := breaks }
termination_by text.length

/-- A block scalar behind its indicator, where the enclosing block has the given
indentation, -1 for none. -/
def block? (folded : Bool) (outer : Int) (text : List Spot) :
    Option (List Char × List Spot) := do
  let (chomp, digit, text) ← blockHeader? text
  let base := outer.toNat
  let (breaks, widest, text) ←
    blockBreaks? (if digit = 0 then none else some (base + digit)) text [] 0
  let indent := if digit = 0 then max widest (max (outer + 1).toNat 1) else base + digit
  let (lines, rest) ← blockLines? folded indent text { empty := breaks }
  some (lines.text chomp, rest)

end Phrasebook.Yaml
