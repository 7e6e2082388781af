import Phrasebook.Reference.Expansion
import Phrasebook.Text.Utf8

/-
  A pass over the bytes of a text.

  A cursor moves over the UTF-8 of the text, byte by byte up to a `#`. If the
  byte behind that is no `{` the cursor steps over both, and may stand inside a
  character then. What has been passed over is copied when a reference is
  reached, and at the end; `copied` is how far that has been done.

  Two things can go wrong: a byte past the end is read, or a piece of the text
  is taken that does not begin and end where characters do. There is no pass
  then.

  Correspondence:
    `resolve_pass` ↔ `bytePass`; its loop ↔ `walk`
-/

namespace Phrasebook.Reference

def bytes (text : String) : List UInt8 := Utf8.encode text.toList

def hashByte : UInt8 := 0x23

def openByte : UInt8 := 0x7B

def closeByte : UInt8 := 0x7D

/-- The piece of a text from one byte position to another. At both of them a
character has to begin or the text to end. -/
def slice? (text : String) (start stop : Nat) : Option String :=
  if start ≤ stop ∧ (String.Pos.Raw.mk start).IsValid text ∧
      (String.Pos.Raw.mk stop).IsValid text then
    String.fromUTF8? (text.toUTF8.extract start stop)
  else none

/-- Ends the pass: what has not been copied is copied. -/
def finish {σ : Type} (text : String) (copied : Nat) (out : String) (replaced : Bool) (s : σ) :
    Option (Pass σ) := do
  let rest ← slice? text copied (bytes text).length
  some ⟨out ++ rest, replaced, s⟩

/-- Moves on from byte `cursor`, with `out` written so far. -/
def walk {σ : Type} (lookup : Lookup σ) (text : String) (cursor copied : Nat) (out : String)
    (replaced : Bool) (s : σ) : Option (Pass σ) :=
  if _ : cursor < (bytes text).length then do
    let byte ← (bytes text)[cursor]?
    if byte ≠ hashByte then walk lookup text (cursor + 1) copied out replaced s
    else
      match (bytes text)[cursor + 1]? with
      | none => finish text copied out replaced s
      | some next =>
        if next ≠ openByte then walk lookup text (cursor + 2) copied out replaced s
        else
          let start := cursor + 2
          let rest ← slice? text start (bytes text).length
          match (bytes rest).idxOf? closeByte with
          | none => finish text copied out replaced s
          | some size =>
            let close := start + size
            let before ← slice? text copied cursor
            let name ← slice? text start close
            match lookup name s with
            | (some answer, s) =>
              walk lookup text (close + 1) (close + 1) (out ++ before ++ answer) true s
            | (none, s) =>
              let reference ← slice? text cursor (close + 1)
              walk lookup text (close + 1) (close + 1) (out ++ before ++ "#" ++ reference)
                replaced s
  else finish text copied out replaced s
termination_by (bytes text).length - cursor

/-- One pass over the bytes of `text`, if nothing goes wrong. -/
def bytePass {σ : Type} (lookup : Lookup σ) (text : String) (s : σ) : Option (Pass σ) :=
  walk lookup text 0 0 "" false s

end Phrasebook.Reference
