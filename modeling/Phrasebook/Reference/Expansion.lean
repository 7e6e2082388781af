import Phrasebook.Text.Basic

/-
  References `#{name}` in a text, and their expansion.

  A text is a row of tokens and a tail. A token is a character other than `#`,
  `#` with a character other than `{` after it, or a reference `#{name}`. The
  tail is what the end of the text leaves open: nothing, a last `#`, or `#{`
  with no `}` after it.

  A pass looks up every reference once, from left to right. An answer takes the place
  of the reference and is not read again in this pass; a reference without an answer
  is escaped to `##{name}`, which later passes read as `##` and plain text. The
  lookup may keep a state: `σ` is what it knows, and every question may change it.

  Passes are repeated until one of them replaces nothing. Two limits cut an expansion
  short, looked at after every pass that replaced something: the text may not outgrow
  its budget, sixteen times the input and 64 KiB more, and a bound on the passes, if
  there is one, may not be reached. Without a bound, definitions that lead back to
  themselves and do not grow the text are expanded for ever: `run` has no value then.

  Correspondence:
    `resolve_pass`           ↔ `pass`, and `bytePass` byte by byte
    `TagResolver.resolve`    ↔ `expand`; its loop ↔ `Lookup.run`
    `output_budget`          ↔ `budget`
    `DEFAULT_MAX_PASSES`     ↔ `defaultMaxPasses`
-/

namespace Phrasebook.Reference

/-! ## Tokens -/

/-- `plain c` has `c ≠ '#'`, `pair c` has `c ≠ '{'`, and no name holds `}`. -/
inductive Token where
  | plain (c : Char)
  | pair (c : Char)
  | reference (name : List Char)
  deriving DecidableEq, Repr

/-- What a text ends in behind its tokens. -/
inductive Tail where
  | empty
  | hash
  | unclosed (rest : List Char)
  deriving DecidableEq, Repr

def Token.chars : Token → List Char
  | .plain c => [c]
  | .pair c => ['#', c]
  | .reference name => '#' :: '{' :: name ++ ['}']

def Tail.chars : Tail → List Char
  | .empty => []
  | .hash => ['#']
  | .unclosed rest => '#' :: '{' :: rest

/-- What a token must be to be one: the grammar's side conditions. -/
def Token.Proper : Token → Prop
  | .plain c => c ≠ '#'
  | .pair c => c ≠ '{'
  | .reference name => '}' ∉ name

/-- No name is closed in what follows an open `#{`. -/
def Tail.Proper : Tail → Prop
  | .unclosed rest => '}' ∉ rest
  | _ => True

/-- The tokens and the tail of a text, read from the left. -/
def tokens : List Char → List Token × Tail
  | [] => ([], .empty)
  | '#' :: '{' :: rest =>
    match h : rest.dropWhile (· != '}') with
    | [] => ([], .unclosed rest)
    | _ :: after =>
      have := Text.length_lt_of_dropWhile_eq h
      let (row, tail) := tokens after
      (.reference (rest.takeWhile (· != '}')) :: row, tail)
  | ['#'] => ([], .hash)
  | '#' :: c :: rest =>
    let (row, tail) := tokens rest
    (.pair c :: row, tail)
  | c :: rest =>
    let (row, tail) := tokens rest
    (.plain c :: row, tail)
termination_by text => text.length

/-! ## Passes -/

/-- Answers the question for a name, or declines, and moves on to a new state. -/
abbrev Lookup (σ : Type) := String → σ → Option String × σ

def Lookup.pure (answer : String → Option String) : Lookup Unit :=
  fun name s => (answer name, s)

/-- The lookup that keeps the names it was asked for, newest first. -/
def Lookup.noting (answer : String → Option String) : Lookup (List String) :=
  fun name asked => (answer name, name :: asked)

/-- What a pass yields: the new text, whether any reference was replaced, and
the state of the lookup after its last question. -/
structure Pass (σ : Type) where
  text : String
  replaced : Bool
  state : σ

/-- Reads on, with `out` written so far. -/
def scan {σ : Type} (lookup : Lookup σ) :
    List Char → (out : String) → (replaced : Bool) → σ → Pass σ
  | [], out, replaced, s => ⟨out, replaced, s⟩
  | '#' :: '{' :: rest, out, replaced, s =>
    match h : rest.dropWhile (· != '}') with
    | [] => ⟨out ++ String.ofList ('#' :: '{' :: rest), replaced, s⟩
    | _ :: after =>
      have := Text.length_lt_of_dropWhile_eq h
      let name := rest.takeWhile (· != '}')
      match lookup (String.ofList name) s with
      | (some answer, s') => scan lookup after (out ++ answer) true s'
      | (none, s') =>
        scan lookup after (out ++ String.ofList ('#' :: '#' :: '{' :: name ++ ['}'])) replaced s'
  | ['#'], out, replaced, s => ⟨out.push '#', replaced, s⟩
  | '#' :: c :: rest, out, replaced, s => scan lookup rest ((out.push '#').push c) replaced s
  | c :: rest, out, replaced, s => scan lookup rest (out.push c) replaced s
termination_by text => text.length

def pass {σ : Type} (lookup : Lookup σ) (text : String) (s : σ) : Pass σ :=
  scan lookup text.toList "" false s

/-! ## Expansions -/

def maxCount : Nat := UInt64.size - 1

/-- The bound on the passes where none is asked for. -/
def defaultMaxPasses : Nat := 64

/-- The size in bytes a text expanded from `input` may reach. -/
def budget (input : String) : Nat :=
  min (input.utf8ByteSize * 16 + 64 * 1024) maxCount

/-- Why an expansion stopped; an `endless` one never does. -/
inductive Stop where
  | settled
  | outgrown
  | passBound
  | endless
  deriving DecidableEq, Repr

/-- The last text, the passes that replaced something, and why it is the last. -/
structure Expansion (σ : Type) where
  text : String
  passes : Nat
  stop : Stop
  state : σ

/-- The passes from `text` on, `passes` having replaced something before. A
`maxPasses` of 0 is no bound. -/
def Lookup.run {σ : Type} (lookup : Lookup σ) (maxPasses limit passes : Nat) (text : String)
    (s : σ) : Option (Expansion σ) :=
  let next := pass lookup text s
  if next.replaced = false then some ⟨next.text, passes, .settled, next.state⟩
  else if limit < next.text.utf8ByteSize then
    some ⟨next.text, passes + 1, .outgrown, next.state⟩
  else if maxPasses ≠ 0 ∧ maxPasses ≤ passes + 1 then
    some ⟨next.text, passes + 1, .passBound, next.state⟩
  else lookup |>.run maxPasses limit (passes + 1) next.text next.state
partial_fixpoint

/-- The expansion of `input` with at most `maxPasses` passes, 0 for no bound. -/
def expand {σ : Type} (lookup : Lookup σ) (maxPasses : Nat) (input : String) (s : σ) :
    Expansion σ :=
  (lookup.run maxPasses (budget input) 0 input s).getD ⟨input, 0, .endless, s⟩

end Phrasebook.Reference
