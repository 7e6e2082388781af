import Phrasebook.Proofs.TagFile.Lines
import Phrasebook.Proofs.Text.Lossy

/-
  Tag files of lines with bytes in them that are not UTF-8.

  A file is cut into lines, and the lines are stripped of marks and returns, while
  it is still bytes; only what is left of a line is read as text. Line feed, mark,
  return and separator are characters, and no fault takes a character in. So it
  makes no difference to read the whole file as text first.

  What is proved:
    1. `map_lossy_lines` — the lines of a file show the lines of its text.
    2. `lossy_stripped` — what is left of a line shows what is left of its text.
    3. `faults_local` — the entries of a file are those of its text, and a file
       whose faults have been written out as U+FFFD holds the same tags.
-/

namespace Phrasebook.TagFile

open Utf8

def unmarked (line : List Char) : List Char :=
  if line.head? = some '\uFEFF' then line.tail else line

def unreturned (line : List Char) : List Char :=
  if line.getLast? = some '\r' then line.dropLast else line

/-- The entry of a line that is text, if there is anything on it. -/
def textPair? (line : List Char) : Option (String × String) :=
  let line := unreturned (unmarked line)
  if line.isEmpty then none else some (entryOf line)

def textEntries (text : List Char) : List (String × String) :=
  (text.splitOn '\n').filterMap textPair?

/-! ## Lines -/

theorem lossy_append_lineFeed (before rest : List UInt8) :
    lossy (before ++ lineFeed :: rest) = lossy before ++ '\n' :: lossy rest :=
  lossy_append_char before '\n' rest

theorem map_lossy_lines (bytes : List UInt8) :
    (lines bytes).map lossy = (lossy bytes).splitOn '\n' := by
  induction hn : bytes.length using Nat.strongRecOn generalizing bytes with
  | ind n ih =>
    by_cases hfeed : lineFeed ∈ bytes
    · obtain ⟨before, rest, rfl⟩ := List.append_of_mem hfeed
      rw [List.length_append, List.length_cons] at hn
      rw [lines_append_lineFeed, List.map_append, ih before.length (by omega) before rfl,
        ih rest.length (by omega) rest rfl, lossy_append_lineFeed, List.splitOn_append_cons_self]
    · have htext : '\n' ∉ lossy bytes := fun hm => hfeed (mem_of_mem_lossy (by decide) hm)
      rw [lines_of_not_mem hfeed, List.splitOn_eq_singleton htext]
      rfl

/-! ## Marks and returns -/

theorem lossy_dropMark (line : List UInt8) : lossy (dropMark line) = unmarked (lossy line) := by
  rw [dropMark.eq_def]
  split
  · next rest =>
    have hmark : lossy (0xEF :: 0xBB :: 0xBF :: rest) = '\uFEFF' :: lossy rest :=
      lossy_append_char [] '\uFEFF' rest
    rw [hmark]
    rfl
  · next hbare =>
    rw [unmarked, if_neg]
    -- a mark is shown by its own three bytes alone
    intro hhead
    obtain ⟨text, htext⟩ := List.head?_eq_some_iff.mp hhead
    have hshown : lossy line = [] ++ '\uFEFF' :: text := htext
    obtain ⟨before, after, rfl, hbefore, -⟩ := (lossy_eq_append_cons_iff (by decide)).mp hshown
    rw [lossy_eq_nil_iff] at hbefore
    subst hbefore
    exact hbare after rfl

theorem lossy_dropReturn (line : List UInt8) :
    lossy (dropReturn line) = unreturned (lossy line) := by
  rw [dropReturn]
  split
  · next hlast =>
    obtain ⟨init, rfl⟩ := List.getLast?_eq_some_iff.mp hlast
    have hreturn : lossy (init ++ [13]) = lossy init ++ ['\r'] := lossy_append_char init '\r' []
    rw [hreturn, unreturned, List.getLast?_concat, if_pos rfl, List.dropLast_concat,
      List.dropLast_concat]
  · next hbare =>
    rw [unreturned, if_neg]
    intro hlast
    obtain ⟨text, htext⟩ := List.getLast?_eq_some_iff.mp hlast
    have hshown : lossy line = text ++ '\r' :: [] := htext
    obtain ⟨before, after, rfl, -, hafter⟩ := (lossy_eq_append_cons_iff (by decide)).mp hshown
    rw [lossy_eq_nil_iff] at hafter
    subst hafter
    exact hbare (List.getLast?_concat ..)

/-- What is left of a line shows what is left of its text. -/
theorem lossy_stripped (line : List UInt8) :
    lossy (dropReturn (dropMark line)) = unreturned (unmarked (lossy line)) := by
  rw [lossy_dropReturn, lossy_dropMark]

/-! ## Entries -/

theorem linePair?_eq_textPair? (line : List UInt8) : linePair? line = textPair? (lossy line) := by
  have hempty : (dropReturn (dropMark line)).isEmpty =
      (unreturned (unmarked (lossy line))).isEmpty := by
    rw [← lossy_stripped, Bool.eq_iff_iff, List.isEmpty_iff, List.isEmpty_iff, lossy_eq_nil_iff]
  simp only [linePair?, textPair?, hempty, lossy_stripped]

theorem lineEntries_eq_textEntries (bytes : List UInt8) :
    lineEntries bytes = textEntries (lossy bytes) := by
  rw [lineEntries, textEntries, ← map_lossy_lines, List.filterMap_map]
  exact List.filterMap_congr fun line _ => linePair?_eq_textPair? line

/-- Bytes that are not UTF-8 stay where they are. Any bytes show one text, in which
each character stands for its own bytes and one U+FFFD for each maximal invalid
part. The entries of a file are those of the text that it shows, cut into lines and
stripped as text; a file with that text written out holds the same tags. No fault
takes in a character next to it: one that stands anywhere among bytes is shown, and
what comes before it and after it is shown as if it stood alone. -/
theorem faults_local (bytes : List UInt8) :
    (∀ text, Shows bytes text ↔ text = lossy bytes) ∧
      lineEntries bytes = textEntries (lossy bytes) ∧
      lineEntries (encode (lossy bytes)) = lineEntries bytes ∧
      ofLines (encode (lossy bytes)) = ofLines bytes ∧
      ∀ (before : List UInt8) (c : Char) (after : List UInt8),
        lossy (before ++ (String.utf8EncodeChar c ++ after)) =
          lossy before ++ c :: lossy after := by
  have hentries : lineEntries (encode (lossy bytes)) = lineEntries bytes := by
    rw [lineEntries_eq_textEntries, lossy_encode, lineEntries_eq_textEntries]
  exact ⟨fun _ => shows_iff, lineEntries_eq_textEntries bytes, hentries,
    congrArg Tags.ofPairs hentries, lossy_append_char⟩

/-- A torn mark, a sequence torn by a separator, one by a return and one by a line
feed. -/
example : lineEntries [0xEF, 0xBB, 0x61, 0xE2, 0x82, 0x20, 0xF0, 0x9F, 0x0D, 0xC3, 0x0A, 0x62] =
    [("\uFFFDa\uFFFD", "\uFFFD\r\uFFFD"), ("b", "")] := by decide +kernel

end Phrasebook.TagFile
