import Phrasebook.Proofs.Text.Decoding
import Phrasebook.TagFile.Format

/-
  Tag files of lines: which maps they hold, and how those can be written.

  A line may carry a byte order mark and a carriage return that are no part of
  its tag. They are there to be left out, except where the name starts with a
  mark or the text ends in a return of its own: then the one that is dropped has
  to be an extra one.

  What is proved:
    1. `lines_eq_splitOn` — the lines are what stands between the line feeds.
    2. `strip_framed` — of a line, what is between mark and return is left.
    3. `lineEntries_written` — a file written line by line has the entries that
       were written, in order.
    4. `lines_round_trip` — the maps that files hold, every way of writing such a
       map that gives it back, and which of two entries for a name counts.
-/

namespace Phrasebook.TagFile

open Utf8

/-! ## Lines -/

theorem lines_go (bytes line : List UInt8) (before : List (List UInt8)) :
    lines.go bytes line before =
      before.reverse ++ (bytes.splitOn lineFeed).modifyHead (line.reverse ++ ·) := by
  induction bytes generalizing line before with
  | nil => simp [lines.go]
  | cons b bytes ih =>
    rw [lines.go, List.splitOn_cons_eq_if_modifyHead]
    by_cases hb : b = lineFeed
    · have hid : (bytes.splitOn lineFeed).modifyHead ([].reverse ++ ·) = bytes.splitOn lineFeed :=
        congrFun List.modifyHead_id _
      rw [if_pos hb, if_pos (by simpa using hb), ih, hid]
      simp
    · rw [if_neg hb, if_neg (by simpa using hb), ih, List.modifyHead_modifyHead]
      congr 2
      funext rest
      simp

theorem lines_eq_splitOn (bytes : List UInt8) : lines bytes = bytes.splitOn lineFeed := by
  rw [lines, lines_go]
  exact congrFun List.modifyHead_id _

theorem lines_of_not_mem {line : List UInt8} (h : lineFeed ∉ line) : lines line = [line] := by
  rw [lines_eq_splitOn, List.splitOn_eq_singleton h]

theorem lines_append_lineFeed (before rest : List UInt8) :
    lines (before ++ lineFeed :: rest) = lines before ++ lines rest := by
  rw [lines_eq_splitOn, lines_eq_splitOn, lines_eq_splitOn, List.splitOn_append_cons_self]

theorem lineFeed_not_mem_of_mem_lines {bytes line : List UInt8} (h : line ∈ lines bytes) :
    lineFeed ∉ line := by
  rw [lines_eq_splitOn] at h
  induction bytes generalizing line with
  | nil =>
    rw [List.splitOn_nil, List.mem_singleton] at h
    rw [h]
    exact List.not_mem_nil
  | cons b bytes ih =>
    rw [List.splitOn_cons_eq_if_modifyHead] at h
    split at h
    · cases h with
      | head => exact List.not_mem_nil
      | tail _ h => exact ih h
    · next hb =>
      cases hsplit : bytes.splitOn lineFeed with
      | nil => exact absurd hsplit (List.splitOn_ne_nil lineFeed bytes)
      | cons first more =>
        rw [hsplit] at h ih
        cases h with
        | head =>
          intro hm
          cases hm with
          | head => exact hb (by simp)
          | tail _ hm => exact ih (.head _) hm
        | tail _ h => exact ih (.tail _ h)

/-! ## Marks and returns -/

theorem dropMark_encode_marked (text : List Char) :
    dropMark (encode ('\uFEFF' :: text)) = encode text := rfl

theorem dropMark_encode_bare {text : List Char} (h : text.head? ≠ some '\uFEFF') :
    dropMark (encode text) = encode text := by
  rw [dropMark.eq_def]
  split
  · next rest hbytes =>
    -- the three bytes are read as a mark
    have hread := lossy_encode_append ['\uFEFF'] rest
    have hmark : encode ['\uFEFF'] ++ rest = encode text := hbytes.symm
    rw [hmark, lossy_encode] at hread
    rw [hread] at h
    exact absurd rfl h
  · rfl

theorem dropReturn_encode_returned (text : List Char) :
    dropReturn (encode (text ++ ['\r'])) = encode text := by
  have hencode : encode (text ++ ['\r']) = encode text ++ [13] := encode_append text ['\r']
  rw [hencode, dropReturn, List.getLast?_concat, if_pos rfl, List.dropLast_concat]

theorem dropReturn_encode_bare {text : List Char} (h : text.getLast? ≠ some '\r') :
    dropReturn (encode text) = encode text := by
  rw [dropReturn, if_neg]
  intro hlast
  cases List.eq_nil_or_concat' text with
  | inl hnil =>
    rw [hnil] at hlast
    cases hlast
  | inr hconcat =>
    obtain ⟨init, c, rfl⟩ := hconcat
    -- the last byte belongs to the last character
    have hmem : '\r'.toUInt8 ∈ String.utf8EncodeChar c := by
      obtain ⟨first, more, hc⟩ := exists_encodeChar c
      rw [encode_append, encode_cons, encode_nil, List.append_nil, List.getLast?_append_of_ne_nil,
        hc] at hlast
      · rw [hc]
        exact List.mem_of_getLast? hlast
      · rw [hc]
        exact List.cons_ne_nil first more
    have hc := (mem_encodeChar_iff (by decide)).mp hmem
    rw [hc, List.getLast?_concat] at h
    exact h rfl

/-- A line of `content`, with a mark before it and a return after it or not. -/
def framed (marked returned : Bool) (content : List Char) : List Char :=
  (if marked then ['\uFEFF'] else []) ++ content ++ (if returned then ['\r'] else [])

/-- Of a line, what is between mark and return is left, if neither is missing
where the content has one of its own. -/
theorem strip_framed {marked returned : Bool} {content : List Char}
    (hmarked : marked = false → content.head? ≠ some '\uFEFF')
    (hreturned : returned = false → content.getLast? ≠ some '\r') :
    dropReturn (dropMark (encode (framed marked returned content))) = encode content := by
  have hmark : dropMark (encode (framed marked returned content)) =
      encode (content ++ if returned then ['\r'] else []) := by
    cases marked with
    | true => exact dropMark_encode_marked _
    | false =>
      apply dropMark_encode_bare
      show (content ++ if returned then ['\r'] else []).head? ≠ _
      cases content with
      | nil => cases returned <;> decide
      | cons c content => exact hmarked rfl
  rw [hmark]
  cases returned with
  | true => exact dropReturn_encode_returned content
  | false =>
    show dropReturn (encode (content ++ [])) = _
    rw [List.append_nil]
    exact dropReturn_encode_bare (hreturned rfl)

theorem mem_of_mem_stripped {line : List UInt8} {b : UInt8}
    (h : b ∈ dropReturn (dropMark line)) : b ∈ line := by
  have hreturn : b ∈ dropMark line := by
    rw [dropReturn] at h
    split at h
    · exact List.mem_of_mem_dropLast h
    · exact h
  rw [dropMark.eq_def] at hreturn
  split at hreturn
  · exact .tail _ (.tail _ (.tail _ hreturn))
  · exact hreturn

/-! ## Entries -/

/-- The names and texts that a line can hold. -/
def Writable (name value : String) : Prop :=
  ' ' ∉ name.toList ∧ '\t' ∉ name.toList ∧ '\n' ∉ name.toList ∧ '\n' ∉ value.toList

instance (name value : String) : Decidable (Writable name value) :=
  inferInstanceAs (Decidable (_ ∧ _))

theorem isSeparator_iff {c : Char} : isSeparator c = true ↔ c = ' ' ∨ c = '\t' := by
  simp [isSeparator]

theorem entryOf_concat {name value : String} {separator : Char} (h : Writable name value)
    (hseparator : isSeparator separator = true) :
    entryOf (name.toList ++ separator :: value.toList) = (name, value) := by
  have hname : ∀ c ∈ name.toList, (!isSeparator c) = true := by
    intro c hc
    rw [Bool.not_eq_true', Bool.eq_false_iff]
    intro hsep
    rcases isSeparator_iff.mp hsep with rfl | rfl
    · exact h.1 hc
    · exact h.2.1 hc
  have hstop : ¬(!isSeparator separator) = true := by simp [hseparator]
  rw [entryOf, List.takeWhile_append_of_pos hname, List.dropWhile_append_of_pos hname,
    List.takeWhile_cons_of_neg (p := (!isSeparator ·)) hstop,
    List.dropWhile_cons_of_neg (p := (!isSeparator ·)) hstop, List.append_nil, List.drop_one,
    List.tail_cons, String.ofList_toList, String.ofList_toList]

/-- What is read off a line can be written. -/
theorem writable_of_read {line : List UInt8} (hline : lineFeed ∉ line) {name value : String}
    (h : linePair? line = some (name, value)) : Writable name value := by
  have hlossy : '\n' ∉ lossy (dropReturn (dropMark line)) := by
    intro hm
    exact hline (mem_of_mem_stripped (mem_of_mem_lossy (by decide) hm))
  rw [linePair?] at h
  split at h
  · cases h
  · cases h
    refine ⟨?_, ?_, ?_, ?_⟩ <;> intro hm <;> rw [String.toList_ofList] at hm
    · exact absurd (List.mem_takeWhile_imp hm) (by decide)
    · exact absurd (List.mem_takeWhile_imp hm) (by decide)
    · exact hlossy ((List.takeWhile_sublist _).mem hm)
    · exact hlossy ((List.dropWhile_sublist _).mem (List.mem_of_mem_drop hm))

theorem lineEntries_append_lineFeed (before rest : List UInt8) :
    lineEntries (before ++ lineFeed :: rest) = lineEntries before ++ lineEntries rest := by
  rw [lineEntries, lines_append_lineFeed, List.filterMap_append]
  rfl

theorem lineEntries_concat_lineFeed (bytes : List UInt8) :
    lineEntries (bytes ++ [lineFeed]) = lineEntries bytes := by
  rw [lineEntries_append_lineFeed]
  exact List.append_nil _

/-! ## Files -/

/-- A line as it is written: an entry, or nothing that counts. -/
inductive Row where
  | entry (name value : String) (separator : Char) (marked returned : Bool)
  | blank (marked returned : Bool)

namespace Row

def text : Row → List Char
  | entry name value separator marked returned =>
    framed marked returned (name.toList ++ separator :: value.toList)
  | blank marked returned => framed marked returned []

/-- The name and the text that the line is written for. -/
def pair? : Row → Option (String × String)
  | entry name value _ _ _ => some (name, value)
  | blank _ _ => none

/-- A space or a tab ends the name, a mark is there if the name starts with one
of its own, and a return if the text ends in one. -/
def Exact : Row → Prop
  | entry name value separator marked returned =>
    (separator = ' ' ∨ separator = '\t') ∧
      (marked = false → name.toList.head? ≠ some '\uFEFF') ∧
      (returned = false → value.toList.getLast? ≠ some '\r')
  | blank _ _ => True

def Writable : Row → Prop
  | entry name value _ _ _ => TagFile.Writable name value
  | blank _ _ => True

instance (row : Row) : Decidable row.Exact :=
  match row with
  | entry _ _ _ _ _ => inferInstanceAs (Decidable (_ ∧ _))
  | blank _ _ => inferInstanceAs (Decidable True)

instance (row : Row) : Decidable row.Writable :=
  match row with
  | entry name value _ _ _ => inferInstanceAs (Decidable (TagFile.Writable name value))
  | blank _ _ => inferInstanceAs (Decidable True)

end Row

/-- The file of rows, each with a line feed at its end. -/
def written (rows : List Row) : List UInt8 :=
  encode (rows.flatMap fun row => row.text ++ ['\n'])

/-- What a line holds is kept apart from its frame. -/
theorem strip_entry {name value : String} {separator : Char} {marked returned : Bool}
    (h : (Row.entry name value separator marked returned).Exact) :
    dropReturn (dropMark (encode (Row.entry name value separator marked returned).text)) =
      encode (name.toList ++ separator :: value.toList) := by
  obtain ⟨hseparator, hmarked, hreturned⟩ := h
  apply strip_framed
  · intro hbare
    cases hname : name.toList with
    | nil =>
      show some separator ≠ _
      rcases hseparator with rfl | rfl <;> decide
    | cons c name =>
      have hhead := hmarked hbare
      rw [hname] at hhead
      exact hhead
  · intro hbare
    rw [List.getLast?_append_of_ne_nil _ (List.cons_ne_nil _ _), List.getLast?_cons]
    cases hvalue : value.toList.getLast? with
    | none =>
      show some separator ≠ _
      rcases hseparator with rfl | rfl <;> decide
    | some c =>
      have hlast := hreturned hbare
      rw [hvalue] at hlast
      exact hlast

theorem not_mem_framed {marked returned : Bool} {content : List Char} (h : '\n' ∉ content) :
    '\n' ∉ framed marked returned content := by
  cases marked <;> cases returned <;> simpa [framed] using h

section
variable {row : Row} (hexact : row.Exact) (hwritable : row.Writable)
include hexact hwritable

theorem Row.lineFeed_not_mem : lineFeed ∉ encode row.text := by
  have htext : '\n' ∉ row.text := by
    cases row with
    | blank => exact not_mem_framed List.not_mem_nil
    | entry name value separator =>
      obtain ⟨-, -, hname, hvalue⟩ := hwritable
      apply not_mem_framed
      intro hm
      rcases List.mem_append.mp hm with hm | hm
      · exact hname hm
      · cases hm with
        | head => exact absurd hexact.1 (by decide)
        | tail _ hm => exact hvalue hm
  intro hm
  exact htext ((mem_encode_iff (a := '\n') (by decide)).mp hm)

theorem Row.read_text : linePair? (encode row.text) = row.pair? := by
  cases row with
  | blank marked returned =>
    have hstrip : dropReturn (dropMark (encode (framed marked returned []))) = encode [] :=
      strip_framed (fun _ => by decide) (fun _ => by decide)
    rw [linePair?, text, hstrip]
    rfl
  | entry name value separator =>
    have hne : (encode (name.toList ++ separator :: value.toList)).isEmpty = false := by
      obtain ⟨first, more, hfirst⟩ := exists_encodeChar separator
      rw [encode_append, encode_cons, hfirst]
      simp
    have hpair := entryOf_concat hwritable (isSeparator_iff.mpr hexact.1)
    rw [linePair?, strip_entry hexact, hne, lossy_encode, hpair]
    rfl

end

theorem written_cons (row : Row) (rows : List Row) :
    written (row :: rows) = encode row.text ++ lineFeed :: written rows := by
  rw [written, List.flatMap_cons, encode_append, encode_append, List.append_assoc]
  rfl

/-- The last byte of a file is a line feed, and it can be left out. -/
theorem lineEntries_dropLast (rows : List Row) :
    lineEntries (written rows).dropLast = lineEntries (written rows) := by
  cases List.eq_nil_or_concat' rows with
  | inl h => rw [h]; rfl
  | inr h =>
    obtain ⟨init, row, rfl⟩ := h
    have hlast : written (init ++ [row]) = written init ++ encode row.text ++ [lineFeed] := by
      rw [written, List.flatMap_append, encode_append, List.flatMap_singleton, encode_append,
        ← List.append_assoc]
      rfl
    rw [hlast, List.dropLast_concat, lineEntries_concat_lineFeed]

/-- A file written line by line has the entries that were written, in order. -/
theorem lineEntries_written {rows : List Row} (h : ∀ row ∈ rows, row.Exact ∧ row.Writable) :
    lineEntries (written rows) = rows.filterMap Row.pair? := by
  induction rows with
  | nil => rfl
  | cons row rows ih =>
    obtain ⟨hexact, hwritable⟩ := h row (.head rows)
    have hline : lineEntries (encode row.text) = [row].filterMap Row.pair? := by
      rw [lineEntries, lines_of_not_mem (Row.lineFeed_not_mem hexact hwritable),
        List.filterMap_cons, List.filterMap_cons, Row.read_text hexact hwritable]
      rfl
    rw [written_cons, lineEntries_append_lineFeed, hline, ih fun row hrow => h row (.tail _ hrow),
      ← List.filterMap_append]
    rfl

/-! ## Maps -/

/-- The map of pairs with the names and texts of `m`, in any order, is `m`. -/
theorem ofPairs_of_perm {m : Tags} {pairs : List (String × String)} (h : pairs.Perm m.toList) :
    Tags.ofPairs pairs = m := by
  have hdistinct : pairs.Pairwise fun a b => ¬compare a.1 b.1 = .eq := by
    refine (h.pairwise_iff ?_).mpr Std.ExtTreeMap.distinct_keys_toList
    intro a b hab hba
    exact hab (Std.OrientedCmp.eq_symm hba)
  refine Std.ExtTreeMap.ext_getElem? fun name => ?_
  cases hm : m[name]? with
  | some value =>
    have hmem : (name, value) ∈ pairs :=
      h.mem_iff.mpr (Std.ExtTreeMap.mem_toList_iff_getElem?_eq_some.mpr hm)
    exact Std.ExtTreeMap.getElem?_ofList_of_mem Std.ReflCmp.compare_self hdistinct hmem
  | none =>
    apply Std.ExtTreeMap.getElem?_ofList_of_contains_eq_false
    rw [Bool.eq_false_iff]
    intro hname
    obtain ⟨⟨_, value⟩, hmem, rfl⟩ := List.mem_map.mp (List.contains_iff_mem.mp hname)
    have hsome := Std.ExtTreeMap.mem_toList_iff_getElem?_eq_some.mp (h.mem_iff.mp hmem)
    rw [hm] at hsome
    cases hsome

theorem getElem?_ofPairs (pairs : List (String × String)) (name : String) :
    (Tags.ofPairs pairs)[name]? = pairs.reverse.lookup name := by
  induction pairs using List.reverseRecOn with
  | nil => exact Std.ExtTreeMap.getElem?_empty
  | append_singleton pairs pair ih =>
    obtain ⟨key, value⟩ := pair
    have hconcat :
        Tags.ofPairs (pairs ++ [(key, value)]) = (Tags.ofPairs pairs).insert key value := by
      rw [Tags.ofPairs, Tags.ofPairs, Std.ExtTreeMap.ofList_eq_foldl, List.foldl_append,
        Std.ExtTreeMap.ofList_eq_foldl]
      rfl
    rw [hconcat, Std.ExtTreeMap.getElem?_insert, List.reverse_concat', List.lookup_cons, ih]
    by_cases h : key = name
    · rw [h, if_pos Std.ReflCmp.compare_self, beq_self_eq_true]
    · rw [if_neg (by simpa using h), beq_eq_false_iff_ne.mpr (Ne.symm h)]

/-- A map whose names and texts a file of lines can hold. -/
def WritableTags (m : Tags) : Prop :=
  ∀ name value, m[name]? = some value → Writable name value

theorem writableTags_ofPairs {pairs : List (String × String)}
    (h : ∀ pair ∈ pairs, Writable pair.1 pair.2) : WritableTags (Tags.ofPairs pairs) := by
  intro name value hvalue
  rw [getElem?_ofPairs] at hvalue
  obtain ⟨before, after, hreverse, -⟩ := List.lookup_eq_some_iff.mp hvalue
  have hmem : (name, value) ∈ pairs.reverse := by
    rw [hreverse]
    exact List.mem_append_right before (.head after)
  exact h (name, value) (List.mem_reverse.mp hmem)

theorem writableTags_ofLines (bytes : List UInt8) : WritableTags (ofLines bytes) := by
  apply writableTags_ofPairs
  intro pair hpair
  obtain ⟨line, hline, hentry⟩ := List.mem_filterMap.mp hpair
  exact writable_of_read (lineFeed_not_mem_of_mem_lines hline) hentry

theorem ofLines_written {m : Tags} (hm : WritableTags m) {rows : List Row}
    (hexact : ∀ row ∈ rows, row.Exact) (hpairs : (rows.filterMap Row.pair?).Perm m.toList) :
    ofLines (written rows) = m := by
  have hrows : ∀ row ∈ rows, row.Exact ∧ row.Writable := by
    intro row hrow
    refine ⟨hexact row hrow, ?_⟩
    cases row with
    | blank => trivial
    | entry name value =>
      have hmem : (name, value) ∈ m.toList :=
        hpairs.mem_iff.mp (List.mem_filterMap.mpr ⟨_, hrow, rfl⟩)
      exact hm name value (Std.ExtTreeMap.mem_toList_iff_getElem?_eq_some.mp hmem)
  rw [ofLines, lineEntries_written hrows]
  exact ofPairs_of_perm hpairs

theorem ofLines_dropLast (rows : List Row) :
    ofLines (written rows).dropLast = ofLines (written rows) := by
  rw [ofLines, lineEntries_dropLast]
  rfl

/-- The plainest file of a map. -/
theorem exists_ofLines {m : Tags} (hm : WritableTags m) : ∃ bytes, ofLines bytes = m := by
  refine ⟨written (m.toList.map fun pair => .entry pair.1 pair.2 ' ' true true), ?_⟩
  apply ofLines_written hm
  · intro row hrow
    obtain ⟨pair, -, rfl⟩ := List.mem_map.mp hrow
    refine ⟨.inl rfl, ?_, ?_⟩ <;> intro h <;> cases h
  · rw [List.filterMap_map]
    apply List.Perm.of_eq
    exact List.filterMap_some

/-- Files of lines, and the maps they hold. Some file holds a map exactly if no
name in it has a space, a tab or a line feed and no text has a line feed. Such a
map comes back from every file that has one line for each of its entries, in any
order and with blank lines anywhere, where mark and return are there wherever
leaving them out would lose one of the entry's own; the last line feed may be
missing. Of several lines for a name the last counts. -/
theorem lines_round_trip :
    (∀ m : Tags, (∃ bytes, ofLines bytes = m) ↔ WritableTags m) ∧
      (∀ m : Tags, WritableTags m →
        ∀ rows : List Row, (∀ row ∈ rows, row.Exact) →
          (rows.filterMap Row.pair?).Perm m.toList →
            ofLines (written rows) = m ∧ ofLines (written rows).dropLast = m) ∧
      ∀ rows : List Row, (∀ row ∈ rows, row.Exact ∧ row.Writable) → ∀ name,
        (ofLines (written rows))[name]? = (rows.filterMap Row.pair?).reverse.lookup name ∧
          (ofLines (written rows).dropLast)[name]? =
            (rows.filterMap Row.pair?).reverse.lookup name := by
  refine ⟨?_, ?_, ?_⟩
  · intro m
    constructor
    · rintro ⟨bytes, rfl⟩
      exact writableTags_ofLines bytes
    · exact exists_ofLines
  · intro m hm rows hexact hpairs
    have hwritten := ofLines_written hm hexact hpairs
    exact ⟨hwritten, by rw [ofLines_dropLast, hwritten]⟩
  · intro rows hrows name
    have hlast : (ofLines (written rows))[name]? =
        (rows.filterMap Row.pair?).reverse.lookup name := by
      rw [ofLines, lineEntries_written hrows, getElem?_ofPairs]
    exact ⟨hlast, by rw [ofLines_dropLast, hlast]⟩

/-- Names and texts that a frame could damage: an empty name, one that starts with
a mark of its own and has a return in it, an empty text, one that starts with a
separator and ends with a return of its own. -/
def delicate : List (String × String) :=
  [("", "\t x\r"), ("\uFEFFa\rb", ""), ("plain", "\uFEFFtext")]

/-- The delicate entries in another order, framed as sparingly as can be, and
blank lines of every kind. -/
def sparing : List Row :=
  [.blank true true, .entry "plain" "\uFEFFtext" ' ' false false, .blank false false,
    .entry "\uFEFFa\rb" "" '\t' true false, .blank true false, .blank false true,
    .entry "" "\t x\r" ' ' false true]

def repeated : List Row :=
  [.entry "name" "first" ' ' false false, .entry "name" "second" '\t' true true]

theorem lines_round_trip_delicate :
    (∃ bytes, ofLines bytes = Tags.ofPairs delicate) ∧
      ofLines (written sparing) = Tags.ofPairs delicate ∧
      ofLines (written sparing).dropLast = Tags.ofPairs delicate ∧
      (ofLines (written repeated))["name"]? = some "second" := by
  obtain ⟨himage, hback, hlast⟩ := lines_round_trip
  have hdelicate : WritableTags (Tags.ofPairs delicate) := writableTags_ofPairs (by decide)
  have hpairs : (sparing.filterMap Row.pair?).Perm (Tags.ofPairs delicate).toList := by
    decide +kernel
  obtain ⟨hwhole, hcut⟩ := hback _ hdelicate sparing (by decide) hpairs
  exact ⟨(himage _).mpr hdelicate, hwhole, hcut, (hlast repeated (by decide) "name").1⟩

end Phrasebook.TagFile
