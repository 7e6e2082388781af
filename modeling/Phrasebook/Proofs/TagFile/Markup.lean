import Mathlib
import Phrasebook.Proofs.Markup.Document
import Phrasebook.Proofs.TagFile.Lines
import Phrasebook.Proofs.Text.Decoding
import Phrasebook.TagFile.Format

/-
  Tag files in markup, written and read back.

  A sheet is a markup file as it is written: a root, and in it a `Tag` for each
  entry, with comments and other elements between them. How a character is
  written and where white space stands is left to the writer; what is read does
  not depend on it.

  What is proved:
    1. `Sheet.exact_ofPairs` — the plainest sheet of a list of entries is one that
       can be read.
    2. `holds_items` — the tags that stand in a sheet are its entries, in order.
    3. `markup_round_trip` — a sheet is read as the entries it was written for, the
       last one for each name.
-/

namespace Phrasebook.TagFile

open Markup Utf8

/-! ## Sheets -/

/-- What stands in a root, with text behind it: a tag, a comment, another element,
or any document as it is. -/
inductive Item where
  | tag (name : List Letter) (text after : Stretch)
  | comment (body : List Char) (after : Stretch)
  | element (name : List Char) (attributes : List (List Char × List Letter)) (inner : Mixed)
      (after : Stretch)
  | document (text : List Char)

namespace Item

def markup : Item → List Char
  | tag name text after => tagMarkup name text ++ after.markup
  | comment body after => commentMarkup body ++ after.markup
  | element name attributes inner after =>
    elementMarkup name attributes inner.markup ++ after.markup
  | document text => text

def pair? : Item → Option (String × String)
  | tag name text _ =>
    some (String.ofList (lettersText name), String.ofList (lettersText text.letters))
  | comment _ _ => none
  | element _ _ _ _ => none
  | document _ => none

/-- Whether a text can be read by itself, from its first character on, as an
element that is no tag. -/
def IsDocument (text : List Char) : Prop :=
  text.head? = some '<' ∧ startsName text.tail = true ∧
    match Element.ofText text with
    | .ok e => e.name ≠ "Tag"
    | .error _ => False

instance (text : List Char) : Decidable (IsDocument text) :=
  have : Decidable (match Element.ofText text with
      | .ok e => e.name ≠ "Tag"
      | .error _ => False) :=
    match Element.ofText text with
    | .ok e => inferInstanceAs (Decidable (e.name ≠ "Tag"))
    | .error _ => inferInstanceAs (Decidable False)
  inferInstanceAs (Decidable (_ ∧ _ ∧ _))

/-- Everything is written as it should be. The text of a tag has no white space of
its own at its ends, and the other elements are no tags. -/
def Exact : Item → Prop
  | tag name text after =>
    (∀ l ∈ name, l.Exact) ∧ text.Exact ∧
      Text.trim (lettersText text.letters) = lettersText text.letters ∧ after.Exact
  | comment body after => IsComment body ∧ after.Exact
  | element name attributes inner after =>
    (IsName name ∧ name ≠ "Tag".toList) ∧ IsGiven attributes ∧ inner.Exact ∧ after.Exact
  | document text => IsDocument text

instance (item : Item) : Decidable item.Exact :=
  match item with
  | tag _ _ _ => inferInstanceAs (Decidable (_ ∧ _))
  | comment _ _ => inferInstanceAs (Decidable (_ ∧ _))
  | element _ _ _ _ => inferInstanceAs (Decidable (_ ∧ _))
  | document text => inferInstanceAs (Decidable (IsDocument text))

end Item

/-- A markup file: a byte order mark or none, and a root with text and items in
it. -/
structure Sheet where
  marked : Bool
  root : List Char
  attributes : List (List Char × List Letter) := []
  lead : Stretch := {}
  items : List Item

namespace Sheet

def inner (s : Sheet) : List Char := s.lead.markup ++ s.items.flatMap Item.markup

def markup (s : Sheet) : List Char :=
  (if s.marked then ['\uFEFF'] else []) ++ elementMarkup s.root s.attributes s.inner

/-- The entries that the sheet is written for, in order. -/
def pairs (s : Sheet) : List (String × String) := s.items.filterMap Item.pair?

/-- The root is an element, and what stands in it is exact. -/
structure Exact (s : Sheet) : Prop where
  root : IsName s.root
  attributes : IsGiven s.attributes
  lead : s.lead.Exact
  items : ∀ item ∈ s.items, item.Exact

instance (s : Sheet) : Decidable s.Exact :=
  decidable_of_iff (IsName s.root ∧ IsGiven s.attributes ∧ s.lead.Exact ∧
      ∀ item ∈ s.items, item.Exact)
    ⟨fun h => ⟨h.1, h.2.1, h.2.2.1, h.2.2.2⟩, fun h => ⟨h.root, h.attributes, h.lead, h.items⟩⟩

end Sheet

/-! ## The plainest sheet -/

/-- A name and a text that markup can hold: characters it may have, and no white
space at the ends of the text. -/
structure Printable (pair : String × String) : Prop where
  name : pair.1.toList.all isAllowed = true
  value : pair.2.toList.all isAllowed = true
  trimmed : Text.trim pair.2.toList = pair.2.toList

instance (pair : String × String) : Decidable (Printable pair) :=
  decidable_of_iff (pair.1.toList.all isAllowed = true ∧ pair.2.toList.all isAllowed = true ∧
      Text.trim pair.2.toList = pair.2.toList)
    ⟨fun h => ⟨h.1, h.2.1, h.2.2⟩, fun h => ⟨h.name, h.value, h.trimmed⟩⟩

/-- The letter of a character that is written as it is wherever that is safe. -/
def letterOf (c : Char) : Letter :=
  if c = '&' then ⟨c, .named "amp"⟩
  else if c = '<' then ⟨c, .named "lt"⟩
  else if c = '>' then ⟨c, .named "gt"⟩
  else if c = '"' then ⟨c, .named "quot"⟩
  else if c = '\t' then ⟨c, .decimal ['9']⟩
  else if c = '\n' then ⟨c, .decimal ['1', '0']⟩
  else if c = '\r' then ⟨c, .decimal ['1', '3']⟩
  else ⟨c, .plain⟩

theorem char_letterOf (c : Char) : (letterOf c).char = c := by
  simp only [letterOf]
  split_ifs <;> rfl

theorem exact_letterOf {c : Char} (h : isAllowed c = true) : (letterOf c).Exact := by
  simp only [letterOf]
  split_ifs with hamp hlt hgt hquot htab hfeed hreturn
  · subst hamp; decide
  · subst hlt; decide
  · subst hgt; decide
  · subst hquot; decide
  · subst htab; decide
  · subst hfeed; decide
  · subst hreturn; decide
  · refine ⟨h, ?_⟩
    simp [escaped, hamp, hlt, hgt, hquot, htab, hfeed, hreturn]

theorem lettersText_map_letterOf (text : List Char) : lettersText (text.map letterOf) = text := by
  rw [lettersText, List.map_map]
  exact (List.map_congr_left fun c _ => char_letterOf c).trans (List.map_id text)

theorem exact_map_letterOf {text : List Char} (h : text.all isAllowed = true) :
    ∀ l ∈ text.map letterOf, l.Exact := by
  intro l hl
  obtain ⟨c, hc, rfl⟩ := List.mem_map.mp hl
  exact exact_letterOf (List.all_eq_true.mp h c hc)

theorem exact_empty : Stretch.Exact {} := by decide

/-- The sheet of entries with nothing else in it. -/
def Sheet.ofPairs (root : List Char) (pairs : List (String × String)) : Sheet where
  marked := false
  root := root
  items := pairs.map fun pair =>
    .tag (pair.1.toList.map letterOf) { letters := pair.2.toList.map letterOf } {}

theorem Sheet.pairs_ofPairs (root : List Char) (pairs : List (String × String)) :
    (Sheet.ofPairs root pairs).pairs = pairs := by
  have hpair : ∀ pair : String × String,
      (String.ofList (lettersText (pair.1.toList.map letterOf)),
        String.ofList (lettersText (pair.2.toList.map letterOf))) = pair := by
    intro pair
    rw [lettersText_map_letterOf, lettersText_map_letterOf, String.ofList_toList,
      String.ofList_toList]
  simp [Sheet.pairs, Sheet.ofPairs, Item.pair?, List.filterMap_map, Function.comp_def, hpair]

theorem Sheet.exact_ofPairs {root : List Char} (hroot : IsName root)
    {pairs : List (String × String)} (h : ∀ pair ∈ pairs, Printable pair) :
    (Sheet.ofPairs root pairs).Exact := by
  have hnil : Padding [] := by decide
  have hgiven : IsGiven [] := by decide
  refine ⟨hroot, hgiven, exact_empty, ?_⟩
  intro item hitem
  obtain ⟨pair, hpair, rfl⟩ := List.mem_map.mp hitem
  have hprintable := h pair hpair
  refine ⟨exact_map_letterOf hprintable.name, ⟨hnil, exact_map_letterOf hprintable.value, hnil⟩,
    ?_, exact_empty⟩
  rw [lettersText_map_letterOf, hprintable.trimmed]

example : (Sheet.ofPairs "R".toList [("a<b", "x & \ty"), ("c", "")]).markup =
    "<R><Tag name=\"a&lt;b\">x &amp; &#9;y</Tag><Tag name=\"c\"></Tag></R>".toList := by
  decide +kernel

/-! ## What is read -/

def entriesOf (elements : List Element) : List (String × String) :=
  (elements.filter (·.name == "Tag")).map entryOfElement

theorem entriesOf_append (elements elements' : List Element) :
    entriesOf (elements ++ elements') = entriesOf elements ++ entriesOf elements' := by
  rw [entriesOf, List.filter_append, List.map_append]
  rfl

theorem holds_item {item : Item} (h : item.Exact) :
    ∃ elements, Holds item.markup elements ∧ entriesOf elements = item.pair?.toList := by
  cases item with
  | tag name text after =>
    obtain ⟨hname, htext, htrim, hafter⟩ := h
    refine ⟨_, (holds_tag hname htext htrim).append (holds_stretch hafter), ?_⟩
    simp [entriesOf, entryOfElement, Element.attribute?, Item.pair?]
  | comment body after =>
    obtain ⟨hbody, hafter⟩ := h
    exact ⟨_, (holds_comment hbody).append (holds_stretch hafter), rfl⟩
  | element name attributes inner after =>
    obtain ⟨⟨hname, htag⟩, hgiven, hinner, hafter⟩ := h
    obtain ⟨elements, helements⟩ := Mixed.exists_holds hinner
    obtain ⟨content, helement⟩ := holds_element hname hgiven helements
    refine ⟨_, helement.append (holds_stretch hafter), ?_⟩
    have hne : String.ofList name ≠ "Tag" := by
      intro heq
      exact htag (by rw [← heq, String.toList_ofList])
    simp [entriesOf, hne, Item.pair?]
  | document text =>
    obtain ⟨hless, hstarts, hread⟩ := h
    obtain ⟨_, rfl⟩ := List.head?_eq_some_iff.mp hless
    obtain ⟨c, rest, rfl, hc⟩ := exists_of_startsName hstarts
    split at hread
    · next e he =>
      refine ⟨[e], holds_document hc he, ?_⟩
      simp [entriesOf, hread, Item.pair?]
    · exact hread.elim

theorem head?_markup {item : Item} (h : item.Exact) : item.markup.head? = some '<' := by
  cases item with
  | tag => rfl
  | comment => rfl
  | element => rfl
  | document text => exact h.1

/-- No text goes on from one item into the next. -/
theorem head?_items {items : List Item} (h : ∀ item ∈ items, item.Exact) :
    ∀ c, (items.flatMap Item.markup).head? = some c → c = '<' := by
  cases items with
  | nil => simp
  | cons item items =>
    intro c hc
    rw [List.flatMap_cons, List.head?_append, head?_markup (h item (by simp))] at hc
    exact (Option.some.inj hc).symm

theorem holds_items {items : List Item} (h : ∀ item ∈ items, item.Exact) :
    ∃ elements, Holds (items.flatMap Item.markup) elements ∧
      entriesOf elements = items.filterMap Item.pair? := by
  induction items with
  | nil => exact ⟨[], holds_stretch exact_empty, rfl⟩
  | cons item items ih =>
    obtain ⟨hitem, hrest⟩ := List.forall_mem_cons.mp h
    obtain ⟨elements, hholds, hentries⟩ := holds_item hitem
    obtain ⟨elements', hholds', hentries'⟩ := ih hrest
    refine ⟨elements ++ elements', hholds.append hholds' (head?_items hrest), ?_⟩
    rw [entriesOf_append, hentries, hentries']
    cases hpair : item.pair? <;> simp [hpair]

theorem ofText_sheet {s : Sheet} (h : s.Exact) :
    ∃ root, Element.ofText s.markup = .ok root ∧ elementEntries root = s.pairs := by
  obtain ⟨elements, hholds, hentries⟩ := holds_items h.items
  have hinner : Holds s.inner elements :=
    (holds_stretch h.lead).append hholds (head?_items h.items)
  obtain ⟨content, hroot⟩ := ofText_element h.root h.attributes hinner
  have hpairs : elementEntries ⟨String.ofList s.root, valued s.attributes, elements, content⟩ =
      s.pairs := hentries
  refine ⟨_, ?_, hpairs⟩
  rw [← hroot, Sheet.markup]
  cases s.marked <;> rfl

theorem ofMarkup_sheet {s : Sheet} (h : s.Exact) :
    ofMarkup (encode s.markup) = .ok (Tags.ofPairs s.pairs) := by
  obtain ⟨root, hroot, hentries⟩ := ofText_sheet h
  rw [ofMarkup, Element.ofBytes, decode_encode]
  simp only [hroot, Except.map, ofElement, hentries]

/-- Markup files, and the maps they hold. Every list of entries of characters that
markup may have, with texts that have no white space at their ends, is written by a
sheet. A sheet is read as the entries it was written for, of which the last for each
name counts, however its characters are written and whatever stands beside the tags:
a byte order mark before it all, text, comments, elements that are no tags, and white
space around the texts. -/
theorem markup_round_trip :
    (∀ (root : List Char) (pairs : List (String × String)), IsName root →
      (∀ pair ∈ pairs, Printable pair) →
        (Sheet.ofPairs root pairs).Exact ∧ (Sheet.ofPairs root pairs).pairs = pairs) ∧
      ∀ s : Sheet, s.Exact →
        ofMarkup (encode s.markup) = .ok (Tags.ofPairs s.pairs) ∧
          ∀ name, (Tags.ofPairs s.pairs)[name]? = s.pairs.reverse.lookup name := by
  constructor
  · intro root pairs hroot hpairs
    exact ⟨Sheet.exact_ofPairs hroot hpairs, Sheet.pairs_ofPairs root pairs⟩
  · intro s hs
    exact ⟨ofMarkup_sheet hs, getElem?_ofPairs s.pairs⟩

/-- A sheet with everything in it that could be misread: quotes and line ends in a
name, `]]>` and white space of several kinds in and around a text, tags inside a
comment, inside another element and inside a document, and a name with two tags. -/
def intricate : Sheet where
  marked := true
  root := "Root".toList
  attributes := [("version".toList, "1 > 0".toList.map letterOf)]
  lead := { before := "\r\n  ".toList }
  items :=
    [.tag ("a \"<&>'\t\r\n".toList.map letterOf)
        ⟨"\r\n\t".toList, "x]]>\t\n\r y".toList.map letterOf, "\u00A0 \r".toList⟩
        { before := "\n".toList },
      .comment "<Tag name=\"twice\">no</Tag> - ]]>".toList { before := "\n".toList },
      .tag ("twice".toList.map letterOf) { letters := "first".toList.map letterOf } {},
      .element "Other".toList []
        (.element {} "Tag".toList [("name".toList, "twice".toList.map letterOf)]
          (.text { letters := "nested".toList.map letterOf }) (.text {})) {},
      .document "<Other k='1'><![CDATA[<Tag>]]><Tag name='twice'/></Other> ".toList,
      .tag [⟨'t', .hex ['7', '4']⟩, ⟨'w', .plain⟩, ⟨'i', .plain⟩, ⟨'c', .decimal ['9', '9']⟩,
        ⟨'e', .plain⟩] { before := " ".toList, letters := "Привет".toList.map letterOf } {}]

theorem markup_round_trip_intricate :
    (Sheet.ofPairs "Root".toList intricate.pairs).Exact ∧
      ofMarkup (encode intricate.markup) =
        .ok (Tags.ofPairs [("a \"<&>'\t\r\n", "x]]>\t\n\r y"), ("twice", "first"),
          ("twice", "Привет")]) ∧
      (Tags.ofPairs intricate.pairs)["twice"]? = some "Привет" := by
  obtain ⟨hplain, hread⟩ := markup_round_trip
  have hexact : intricate.Exact := by decide +kernel
  have hprintable : ∀ pair ∈ intricate.pairs, Printable pair := by decide +kernel
  have hpairs : intricate.pairs = [("a \"<&>'\t\r\n", "x]]>\t\n\r y"), ("twice", "first"),
      ("twice", "Привет")] := by decide +kernel
  obtain ⟨htags, hlast⟩ := hread intricate hexact
  refine ⟨(hplain _ _ (by decide) hprintable).1, ?_, ?_⟩
  · rw [← hpairs]
    exact htags
  · rw [hlast, hpairs]
    rfl

end Phrasebook.TagFile
