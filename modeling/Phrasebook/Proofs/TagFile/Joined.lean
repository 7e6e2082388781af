import Phrasebook.Proofs.Book.Loading
import Phrasebook.Proofs.TagFile.Lines
import Phrasebook.Proofs.TagFile.Markup
import Phrasebook.Proofs.Tags.History

/-
  Tag files in pieces.

  A file is read as a map, in which the last entry for a name counts, and the map is
  written over a layer, where it counts again. So it makes no difference where a row
  of entries is cut into files: the layer goes by the last entry of all.

  What is proved:
    1. `ofPairs_append`, `merge_merge` — entries one after the other are maps merged
       one after the other.
    2. `layer_loadAll` — files that are loaded in order write the entries of all of
       them over a layer.
    3. `files_joined` — files of lines joined by a line feed, markup cut between two
       children of the root, and the entry that counts after any number of files.
-/

namespace Phrasebook

namespace Tags

theorem merge_assoc (base tags tags' : Tags) :
    (base.merge tags).merge tags' = base.merge (tags.merge tags') := by
  refine Std.ExtTreeMap.ext_getElem? fun name => ?_
  simp only [getElem?_merge, Option.or_assoc]

/-- Entries one after the other are two maps, the second written over the first. -/
theorem ofPairs_append (pairs pairs' : List (String × String)) :
    ofPairs (pairs ++ pairs') = (ofPairs pairs).merge (ofPairs pairs') := by
  refine Std.ExtTreeMap.ext_getElem? fun name => ?_
  rw [getElem?_merge, TagFile.getElem?_ofPairs, TagFile.getElem?_ofPairs,
    TagFile.getElem?_ofPairs, List.reverse_append, List.lookup_append]

section
variable {pairs : List (String × String)} {name value : String}

theorem getElem?_ofPairs_eq_some_iff :
    (ofPairs pairs)[name]? = some value ↔ Latest (· = (name, value)) (·.1 ≠ name) pairs := by
  rw [TagFile.getElem?_ofPairs]
  induction pairs using List.reverseRecOn with
  | nil => simp [not_latest_nil]
  | append_singleton pairs pair ih =>
    rw [latest_concat, ← ih, List.reverse_concat', List.lookup_cons]
    obtain ⟨key, text⟩ := pair
    by_cases h : name = key
    · simp [h, eq_comm]
    · simp [beq_eq_false_iff_ne.mpr h, Ne.symm h]

theorem getElem?_ofPairs_eq_none_iff :
    (ofPairs pairs)[name]? = none ↔ ∀ pair ∈ pairs, pair.1 ≠ name := by
  rw [TagFile.getElem?_ofPairs, List.lookup_eq_none_iff]
  simp only [List.mem_reverse, bne_iff_ne, ne_comm]

end

end Tags

namespace Layers

theorem merge_merge (l : Layers) (scope : Scope) (tags tags' : Tags) :
    (l.merge scope tags).merge scope tags' = l.merge scope (tags.merge tags') := by
  cases scope <;> simp only [merge, Tags.merge_assoc]

end Layers

namespace TagFile

open Markup

/-! ## The entries of files -/

/-- The entries of a file's contents, in order; malformed markup has none. -/
def Format.entries (format : Format) (bytes : List UInt8) : List (String × String) :=
  match format with
  | .lines => lineEntries bytes
  | .markup =>
    match Element.ofBytes bytes with
    | .ok root => elementEntries root
    | .error _ => []

/-- The entries that a file has, in order; one that cannot be had has none. -/
def fileEntries (storage : Storage) (file : String) : List (String × String) :=
  match (storage file).reading with
  | .read bytes => (Format.ofName file).entries bytes
  | _ => []

theorem fragment_eq_ofPairs (storage : Storage) (file : String) :
    fragment storage file = Tags.ofPairs (fileEntries storage file) := by
  rw [fragment, contents, Storage.contents, fileEntries]
  cases (storage file).reading with
  | absent => rfl
  | failed fault => rfl
  | read bytes =>
    simp only
    cases Format.ofName file with
    | lines => rfl
    | markup =>
      simp only [Format.read, Format.entries, ofMarkup]
      cases Element.ofBytes bytes <;> rfl

/-- To gather files is to write the entries of all of them over the map. -/
theorem gatherOver_eq_ofPairs (storage : Storage) (base : Tags) (files : List String) :
    gatherOver storage base files =
      base.merge (Tags.ofPairs (files.flatMap (fileEntries storage))) := by
  -- on the files: what the first one holds is written over the map, the rest over that
  induction files generalizing base with
  | nil => exact (Tags.merge_empty base).symm
  | cons file files ih =>
    have hstep : gatherOver storage base (file :: files) =
        gatherOver storage (base.merge (fragment storage file)) files := rfl
    rw [hstep, ih, fragment_eq_ofPairs, Tags.merge_assoc, ← Tags.ofPairs_append,
      List.flatMap_cons]

theorem layer_loadAll (storage : Storage) (scope : Scope) (files : List String) (b : Book) :
    (b.loadAll storage scope files).1.tags.layer scope =
      (b.tags.layer scope).merge (Tags.ofPairs (files.flatMap (fileEntries storage))) := by
  rw [Book.loadAll_state, ← gatherOver_eq_ofPairs]
  simp only [Layers.foldl_merge]
  cases scope <;> rfl

/-- The text for a name after files are loaded: that of the last entry for it in any of
them, and what the layer held before if there is none. -/
theorem getElem?_layer_loadAll_iff (storage : Storage) (scope : Scope) (files : List String)
    (b : Book) (name value : String) :
    ((b.loadAll storage scope files).1.tags.layer scope)[name]? = some value ↔
      Latest (· = (name, value)) (·.1 ≠ name) (files.flatMap (fileEntries storage)) ∨
        (∀ entry ∈ files.flatMap (fileEntries storage), entry.1 ≠ name) ∧
          (b.tags.layer scope)[name]? = some value := by
  rw [layer_loadAll, Tags.getElem?_merge, Option.or_eq_some_iff,
    Tags.getElem?_ofPairs_eq_some_iff, Tags.getElem?_ofPairs_eq_none_iff]

/-! ## Cuts -/

theorem ofLines_append_lineFeed (before after : List UInt8) :
    ofLines (before ++ lineFeed :: after) = (ofLines before).merge (ofLines after) := by
  rw [ofLines, lineEntries_append_lineFeed, Tags.ofPairs_append]
  rfl

theorem elementEntries_cut {k : Nat} {root first second : Element}
    (hfirst : first.children = root.children.take k)
    (hsecond : second.children = root.children.drop k) :
    elementEntries root = elementEntries first ++ elementEntries second := by
  change entriesOf root.children = entriesOf first.children ++ entriesOf second.children
  rw [hfirst, hsecond, ← entriesOf_append, List.take_append_drop]

/-- Where entries are cut into files makes no difference. Two files of lines are
merged as their lines in one file are, the second one's mark included. Two roots with
the first children of a third and the rest of them are merged as the third is; so are
documents, which are merged by their roots. Over any files of either format, loaded in
order, a layer comes to the last entry for each name, and keeps what it held for a
name without one. -/
theorem files_joined :
    (∀ (l : Layers) (scope : Scope) (before after : List UInt8),
      (l.merge scope (ofLines before)).merge scope (ofLines after) =
        l.merge scope (ofLines (before ++ lineFeed :: after))) ∧
      (∀ (l : Layers) (scope : Scope) (k : Nat) (root first second : Element),
        first.children = root.children.take k → second.children = root.children.drop k →
          (l.merge scope (ofElement first)).merge scope (ofElement second) =
            l.merge scope (ofElement root)) ∧
      (∀ (bytes : List UInt8) (root : Element),
        Element.ofBytes bytes = .ok root → ofMarkup bytes = .ok (ofElement root)) ∧
      ∀ (storage : Storage) (scope : Scope) (files : List String) (b : Book)
        (name value : String),
        ((b.loadAll storage scope files).1.tags.layer scope)[name]? = some value ↔
          Latest (· = (name, value)) (·.1 ≠ name) (files.flatMap (fileEntries storage)) ∨
            (∀ entry ∈ files.flatMap (fileEntries storage), entry.1 ≠ name) ∧
              (b.tags.layer scope)[name]? = some value := by
  refine ⟨?_, ?_, ?_, getElem?_layer_loadAll_iff⟩
  · intro l scope before after
    rw [ofLines_append_lineFeed, Layers.merge_merge]
  · intro l scope k root first second hfirst hsecond
    have hentries := elementEntries_cut hfirst hsecond
    rw [ofElement, ofElement, ofElement, hentries, Tags.ofPairs_append, Layers.merge_merge]
  · intro bytes root hroot
    rw [ofMarkup, hroot]
    rfl

/-- A document with a name on both sides of the cut. -/
def greetings : List UInt8 :=
  Utf8.encode ("<Tags><Tag name=\"hi\">hello</Tag><Note>later</Note>" ++
    "<Tag name=\"hi\">good day</Tag></Tags>").toList

def greetingsRoot : Element :=
  ⟨"Tags", [], [⟨"Tag", [("name", "hi")], [], "hello"⟩, ⟨"Note", [], [], "later"⟩,
    ⟨"Tag", [("name", "hi")], [], "good day"⟩], ""⟩

/-- The document may be cut behind the note. -/
theorem files_joined_greetings :
    Element.ofBytes greetings = .ok greetingsRoot ∧
      ofMarkup greetings = .ok (ofElement greetingsRoot) ∧
      (({} : Layers).merge .user (ofElement ⟨"Tags", [], greetingsRoot.children.take 2, ""⟩)).merge
          .user (ofElement ⟨"Rest", [], greetingsRoot.children.drop 2, "more"⟩) =
        ({} : Layers).merge .user (ofElement greetingsRoot) := by
  obtain ⟨-, hcut, hdocument, -⟩ := files_joined
  have hroot : Element.ofBytes greetings = .ok greetingsRoot := by decide +kernel
  exact ⟨hroot, hdocument _ _ hroot, hcut _ _ 2 greetingsRoot _ _ rfl rfl⟩

end TagFile

end Phrasebook
