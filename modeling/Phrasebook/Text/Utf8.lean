/-
  UTF-8, read one byte at a time.

  A byte string is cut into pieces: a piece is a character, the longest start
  of a sequence that its next byte cannot continue (`broken`), or a sequence
  the input ends in (`cut`). The strict reader `decode` refuses at the first
  piece that is no character and says where it is; the lenient reader `lossy`
  shows every such piece as one U+FFFD.
-/

namespace Phrasebook.Utf8

/-- What a run of bytes stands for; a faulty run is known by its length. -/
inductive Piece where
  | char (c : Char)
  | broken (size : Nat)
  | cut (size : Nat)
  deriving DecidableEq, Repr

/-- A sequence under way: the bytes read, their value so far, the range the
next byte has to be in, and how many bytes follow that one. -/
structure Pending where
  size : Nat
  value : Nat
  low : UInt8
  high : UInt8
  missing : Nat
  deriving DecidableEq, Repr

/-- What a byte at the start of a sequence completes or begins. The ranges of
the second byte leave out overlong forms, surrogates and values past
U+10FFFF. -/
def lead (b : UInt8) : Option Piece × Option Pending :=
  if b < 0x80 then (some (.char (Char.ofNat b.toNat)), none)
  else if b < 0xC2 then (some (.broken 1), none)
  else if b < 0xE0 then (none, some ⟨1, b.toNat - 0xC0, 0x80, 0xBF, 0⟩)
  else if b < 0xF0 then
    (none, some ⟨1, b.toNat - 0xE0, if b = 0xE0 then 0xA0 else 0x80,
      if b = 0xED then 0x9F else 0xBF, 1⟩)
  else if b < 0xF5 then
    (none, some ⟨1, b.toNat - 0xF0, if b = 0xF0 then 0x90 else 0x80,
      if b = 0xF4 then 0x8F else 0xBF, 2⟩)
  else (some (.broken 1), none)

/-- The pieces complete so far, newest first, and the sequence under way. -/
structure Progress where
  done : List Piece := []
  pending : Option Pending := none

def Progress.begin (p : Progress) (b : UInt8) : Progress :=
  match lead b with
  | (some piece, next) => ⟨piece :: p.done, next⟩
  | (none, next) => ⟨p.done, next⟩

/-- One byte further: it continues the sequence under way, or breaks it off
and starts anew. -/
def Progress.step (p : Progress) (b : UInt8) : Progress :=
  match p.pending with
  | none => p.begin b
  | some q =>
    if q.low ≤ b ∧ b ≤ q.high then
      let value := q.value * 64 + (b.toNat - 0x80)
      match q.missing with
      | 0 => ⟨.char (Char.ofNat value) :: p.done, none⟩
      | more + 1 => ⟨p.done, some ⟨q.size + 1, value, 0x80, 0xBF, more⟩⟩
    else Progress.begin ⟨.broken q.size :: p.done, none⟩ b

def Progress.finish (p : Progress) : List Piece :=
  match p.pending with
  | none => p.done.reverse
  | some q => (.cut q.size :: p.done).reverse

def pieces (bytes : List UInt8) : List Piece :=
  (bytes.foldl Progress.step {}).finish

/-- Why a byte string is not UTF-8, with the length of its valid start. -/
inductive Fault where
  | broken (size index : Nat)
  | cut (index : Nat)
  deriving DecidableEq, Repr

def Fault.message : Fault → String
  | .broken size index =>
    "invalid utf-8 sequence of " ++ toString size ++ " bytes from index " ++ toString index
  | .cut index => "incomplete utf-8 byte sequence from index " ++ toString index

/-- The first piece that is no character, `index` bytes having gone before. -/
def firstFault : (index : Nat) → List Piece → Option Fault
  | _, [] => none
  | index, .char c :: rest => firstFault (index + c.utf8Size) rest
  | index, .broken n :: _ => some (.broken n index)
  | index, .cut _ :: _ => some (.cut index)

/-- The character a piece is shown as; a faulty one is U+FFFD. -/
def Piece.shown : Piece → Char
  | .char c => c
  | .broken _ => '\uFFFD'
  | .cut _ => '\uFFFD'

/-- The text with each faulty piece shown as one U+FFFD. -/
def lossy (bytes : List UInt8) : List Char :=
  (pieces bytes).map Piece.shown

/-- The text, if every piece is a character. -/
def decode (bytes : List UInt8) : Except Fault (List Char) :=
  match firstFault 0 (pieces bytes) with
  | some fault => .error fault
  | none => .ok (lossy bytes)

def encode (text : List Char) : List UInt8 :=
  text.flatMap String.utf8EncodeChar

end Phrasebook.Utf8
