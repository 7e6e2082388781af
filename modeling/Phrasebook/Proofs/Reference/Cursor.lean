import Phrasebook.Proofs.Reference.Answers
import Phrasebook.Proofs.Text.Utf8
import Phrasebook.Reference.Cursor

/-
  The cursor over the bytes makes the pass over the characters.

  What is proved:
    1. `slice?_eq` — a piece of a text that begins and ends where characters
       do can be taken, and is the text of these characters.
    2. `walk_eq_scan` — from any place between two tokens the cursor writes
       what the scan writes, and nothing goes wrong on the way.
    3. `bytePass_reads` — every text has one reading, and a pass over its
       bytes writes the tokens and the tail of it with the answers to its
       names.
-/

namespace Phrasebook.Reference

/-! ## Bytes and pieces of a text -/

theorem bytes_ofList (text : List Char) : bytes (String.ofList text) = Utf8.encode text := by
  rw [bytes, String.toList_ofList]

theorem isValid_border (a b : List Char) :
    (String.Pos.Raw.mk (Utf8.encode a).length).IsValid (String.ofList (a ++ b)) := by
  rw [String.Pos.Raw.isValid_iff_exists_append]
  refine ⟨String.ofList a, String.ofList b, String.ofList_append, ?_⟩
  rw [Utf8.length_encode]
  rfl

theorem fromUTF8?_toByteArray (text : String) : String.fromUTF8? text.toByteArray = some text := by
  rw [String.fromUTF8?, dif_pos text.isValidUTF8]
  rfl

theorem extract_between (a b c : List UInt8) :
    (a ++ b ++ c).toByteArray.extract a.length (a ++ b).length = b.toByteArray := by
  have hb : (b ++ c).toByteArray.extract 0 b.length = b.toByteArray := by
    rw [List.toByteArray_append, ByteArray.extract_append_eq_left List.size_toByteArray.symm]
  have := ByteArray.extract_append_size_add' (a := a.toByteArray) (b := (b ++ c).toByteArray)
    (i := 0) (j := b.length) List.size_toByteArray.symm
  rw [List.append_assoc, List.toByteArray_append, List.length_append]
  rwa [hb, Nat.add_zero] at this

/-- A piece that begins and ends where characters do is the text of these. -/
theorem slice?_eq {a b c text : List Char} {start stop : Nat} (htext : text = a ++ b ++ c)
    (hstart : start = (Utf8.encode a).length) (hstop : stop = (Utf8.encode (a ++ b)).length) :
    slice? (String.ofList text) start stop = some (String.ofList b) := by
  subst hstart hstop htext
  have hle : (Utf8.encode a).length ≤ (Utf8.encode (a ++ b)).length := by simp
  have hleft := isValid_border a (b ++ c)
  rw [← List.append_assoc] at hleft
  rw [slice?, if_pos ⟨hle, hleft, isValid_border (a ++ b) c⟩]
  have hextract : (String.ofList (a ++ b ++ c)).toUTF8.extract (Utf8.encode a).length
      (Utf8.encode (a ++ b)).length = (String.ofList b).toByteArray := by
    rw [String.toUTF8_eq_toByteArray, ← Utf8.toByteArray_encode, ← Utf8.toByteArray_encode,
      Utf8.encode_append, Utf8.encode_append]
    exact extract_between _ _ _
  rw [hextract, fromUTF8?_toByteArray]

section
variable {σ : Type} (lookup : Lookup σ) {text : String} {cursor : Nat} (copied : Nat)
  (out : String) (replaced : Bool) (s : σ)

/-! ## Steps of the cursor -/

theorem walk_end (h : (bytes text)[cursor]? = none) :
    walk lookup text cursor copied out replaced s = finish text copied out replaced s := by
  rw [walk, dif_neg (Nat.not_lt.mpr (List.getElem?_eq_none_iff.mp h))]

theorem walk_byte {byte : UInt8} (h : (bytes text)[cursor]? = some byte) (hb : byte ≠ hashByte) :
    walk lookup text cursor copied out replaced s =
      walk lookup text (cursor + 1) copied out replaced s := by
  obtain ⟨hlt, -⟩ := List.getElem?_eq_some_iff.mp h
  rw [walk, dif_pos hlt, h]
  simp only [Option.bind_eq_bind, Option.bind_some, if_pos hb]

section
variable (h : (bytes text)[cursor]? = some hashByte)
include h

theorem walk_hash (h' : (bytes text)[cursor + 1]? = none) :
    walk lookup text cursor copied out replaced s = finish text copied out replaced s := by
  obtain ⟨hlt, -⟩ := List.getElem?_eq_some_iff.mp h
  rw [walk, dif_pos hlt, h, h']
  simp only [Option.bind_eq_bind, Option.bind_some, ne_eq, not_true_eq_false, if_false]

theorem walk_pair {next : UInt8} (h' : (bytes text)[cursor + 1]? = some next)
    (hnext : next ≠ openByte) :
    walk lookup text cursor copied out replaced s =
      walk lookup text (cursor + 2) copied out replaced s := by
  obtain ⟨hlt, -⟩ := List.getElem?_eq_some_iff.mp h
  rw [walk, dif_pos hlt, h, h']
  simp only [Option.bind_eq_bind, Option.bind_some, ne_eq, not_true_eq_false, if_false, hnext,
    not_false_eq_true, if_true]

theorem walk_unclosed (h' : (bytes text)[cursor + 1]? = some openByte) {rest : String}
    (hrest : slice? text (cursor + 2) (bytes text).length = some rest)
    (hclose : (bytes rest).idxOf? closeByte = none) :
    walk lookup text cursor copied out replaced s = finish text copied out replaced s := by
  obtain ⟨hlt, -⟩ := List.getElem?_eq_some_iff.mp h
  rw [walk, dif_pos hlt, h, h']
  simp only [Option.bind_eq_bind, Option.bind_some, ne_eq, not_true_eq_false, if_false, hrest,
    hclose]

theorem walk_reference (h' : (bytes text)[cursor + 1]? = some openByte)
    {rest before name reference : String} {size : Nat}
    (hrest : slice? text (cursor + 2) (bytes text).length = some rest)
    (hclose : (bytes rest).idxOf? closeByte = some size)
    (hbefore : slice? text copied cursor = some before)
    (hname : slice? text (cursor + 2) (cursor + 2 + size) = some name)
    (hreference : slice? text cursor (cursor + 2 + size + 1) = some reference) :
    walk lookup text cursor copied out replaced s =
      let turn := lookup name s
      walk lookup text (cursor + 2 + size + 1) (cursor + 2 + size + 1)
        (out ++ before ++ turn.1.getD ("#" ++ reference)) (replaced || turn.1.isSome) turn.2 := by
  obtain ⟨hlt, -⟩ := List.getElem?_eq_some_iff.mp h
  rw [walk, dif_pos hlt, h, h']
  simp only [Option.bind_eq_bind, Option.bind_some, ne_eq, not_true_eq_false, if_false, hrest,
    hclose, hbefore, hname]
  -- only a name that is declined has its reference taken out of the text again
  rcases lookup name s with ⟨_ | answer, s'⟩
  · simp [hreference, String.append_assoc]
  · simp

end

theorem walk_skip {pre stretch post : List UInt8} (htext : bytes text = pre ++ stretch ++ post)
    (h : hashByte ∉ stretch) :
    walk lookup text pre.length copied out replaced s =
      walk lookup text (pre ++ stretch).length copied out replaced s := by
  induction stretch generalizing pre with
  | nil => rw [List.append_nil]
  | cons byte stretch ih =>
    obtain ⟨hbyte, hstretch⟩ := List.ne_and_not_mem_of_not_mem_cons h
    have hget : (bytes text)[pre.length]? = some byte := by simp [htext]
    have := @ih (pre ++ [byte]) (by simpa using htext) hstretch
    rw [walk_byte lookup copied out replaced s hget (Ne.symm hbyte)]
    simpa using this

end

/-! ## From token to token -/

theorem slice?_rest (a b : List Char) :
    slice? (String.ofList (a ++ b)) (Utf8.encode a).length (bytes (String.ofList (a ++ b))).length =
      some (String.ofList b) :=
  slice?_eq (List.append_nil _).symm rfl (by rw [bytes_ofList])

theorem length_open (a : List Char) :
    (Utf8.encode (a ++ ['#', '{'])).length = (Utf8.encode a).length + 2 := by
  rw [Utf8.encode_append, List.length_append]
  rfl

theorem length_reference (a name : List Char) :
    (Utf8.encode (a ++ Token.chars (.reference name))).length =
      (Utf8.encode a).length + 2 + (Utf8.encode name).length + 1 := by
  have hchars : a ++ Token.chars (.reference name) = (a ++ ['#', '{']) ++ (name ++ ['}']) := by
    simp [Token.chars]
  rw [hchars, Utf8.encode_append, List.length_append, length_open, Utf8.encode_append,
    List.length_append, ← Nat.add_assoc]
  rfl

theorem getElem?_bytes (a b : List Char) (i : Nat) :
    (bytes (String.ofList (a ++ b)))[(Utf8.encode a).length + i]? = (Utf8.encode b)[i]? := by
  rw [bytes_ofList, Utf8.encode_append, List.getElem?_append_right (Nat.le_add_right _ _),
    Nat.add_sub_cancel_left]

theorem hash_mem_iff {text : List Char} : hashByte ∈ Utf8.encode text ↔ '#' ∈ text :=
  Utf8.mem_encode_iff (a := '#') (by decide)

theorem close_mem_iff {text : List Char} : closeByte ∈ Utf8.encode text ↔ '}' ∈ text :=
  Utf8.mem_encode_iff (a := '}') (by decide)

theorem idxOf?_close {name : List Char} (h : '}' ∉ name) (rest : List Char) :
    (bytes (String.ofList (name ++ '}' :: rest))).idxOf? closeByte =
      some (Utf8.encode name).length := by
  rw [bytes_ofList, Utf8.encode_append]
  have hname : (Utf8.encode name).findIdx? (· == closeByte) = none :=
    List.idxOf?_eq_none_iff.mpr (mt close_mem_iff.mp h)
  have hclose : (Utf8.encode ('}' :: rest)).findIdx? (· == closeByte) = some 0 := rfl
  rw [List.idxOf?, List.findIdx?_append, hname, hclose, Option.none_or, Option.map_some,
    Nat.zero_add]

theorem idxOf?_close_none {rest : List Char} (h : '}' ∉ rest) :
    (bytes (String.ofList rest)).idxOf? closeByte = none := by
  rw [bytes_ofList, List.idxOf?_eq_none_iff]
  exact mt close_mem_iff.mp h

section
variable {σ : Type} (lookup : Lookup σ) (done kept : List Char)
  (out : String) (replaced : Bool) (s : σ)

theorem finish_eq (rest : List Char) :
    finish (String.ofList (done ++ rest)) (Utf8.encode done).length out replaced s =
      some ⟨out ++ String.ofList rest, replaced, s⟩ := by
  rw [finish, slice?_rest]
  rfl

theorem walk_chars {tail : Tail} (h : tail.Proper) :
    walk lookup (String.ofList (done ++ (kept ++ tail.chars))) (Utf8.encode (done ++ kept)).length
      (Utf8.encode done).length out replaced s =
    some (scan lookup tail.chars (out ++ String.ofList kept) replaced s) := by
  have hget := getElem?_bytes (done ++ kept) tail.chars
  rw [List.append_assoc] at hget
  rw [scan_chars lookup h, String.append_assoc, ← String.ofList_append, ← finish_eq done]
  cases tail with
  | empty => exact walk_end lookup _ _ _ _ (hget 0)
  | hash => exact walk_hash lookup _ _ _ _ (hget 0) (hget 1)
  | unclosed rest =>
    have htext : done ++ (kept ++ Tail.chars (.unclosed rest)) =
        done ++ kept ++ ['#', '{'] ++ rest := by
      simp [Tail.chars]
    have hrest := slice?_rest (done ++ kept ++ ['#', '{']) rest
    rw [length_open, ← htext] at hrest
    exact walk_unclosed lookup _ _ _ _ (hget 0) (hget 1) hrest (idxOf?_close_none h)

theorem walk_plain {c : Char} (h : c ≠ '#') (rest : List Char) :
    walk lookup (String.ofList (done ++ (kept ++ c :: rest))) (Utf8.encode (done ++ kept)).length
      (Utf8.encode done).length out replaced s =
    walk lookup (String.ofList (done ++ (kept ++ c :: rest)))
      (Utf8.encode (done ++ (kept ++ [c]))).length (Utf8.encode done).length out replaced s := by
  have hbytes : bytes (String.ofList (done ++ (kept ++ c :: rest))) =
      Utf8.encode (done ++ kept) ++ Utf8.encode [c] ++ Utf8.encode rest := by
    rw [bytes_ofList]
    simp
  have hc : hashByte ∉ Utf8.encode [c] := by
    rw [hash_mem_iff, List.mem_singleton]
    exact Ne.symm h
  have := walk_skip lookup (Utf8.encode done).length out replaced s hbytes hc
  rwa [← Utf8.encode_append, List.append_assoc] at this

/-- A `#` is kept with the character behind it, however many bytes that has. -/
theorem walk_hash_char {c : Char} (h : c ≠ '{') (rest : List Char) :
    walk lookup (String.ofList (done ++ (kept ++ '#' :: c :: rest)))
      (Utf8.encode (done ++ kept)).length (Utf8.encode done).length out replaced s =
    walk lookup (String.ofList (done ++ (kept ++ '#' :: c :: rest)))
      (Utf8.encode (done ++ (kept ++ ['#', c]))).length (Utf8.encode done).length out replaced
      s := by
  have hget := getElem?_bytes (done ++ kept) ('#' :: c :: rest)
  rw [List.append_assoc] at hget
  obtain ⟨first, more, hchar⟩ := Utf8.exists_encodeChar c
  have hnext : (Utf8.encode ('#' :: c :: rest))[1]? = some first := by
    rw [Utf8.encode_cons, Utf8.encode_cons, hchar]
    rfl
  have hfirst : first ≠ openByte := by
    intro heq
    refine h ((Utf8.mem_encodeChar_iff (a := '{') (by decide)).mp ?_)
    rw [hchar]
    exact List.mem_cons.mpr (.inl heq.symm)
  -- the cursor may stand inside the character now, but no byte there is a `#`
  have hmore : hashByte ∉ more := by
    have := Utf8.not_mem_tail_encodeChar (a := '#') (by decide) c
    rwa [hchar] at this
  have hbytes : bytes (String.ofList (done ++ (kept ++ '#' :: c :: rest))) =
      Utf8.encode (done ++ kept) ++ [hashByte, first] ++ more ++ Utf8.encode rest := by
    rw [bytes_ofList]
    simp [hchar]
    rfl
  have hskip := walk_skip lookup (Utf8.encode done).length out replaced s hbytes hmore
  have hstop : Utf8.encode (done ++ (kept ++ ['#', c])) =
      Utf8.encode (done ++ kept) ++ [hashByte, first] ++ more := by
    simp [hchar]
    rfl
  have hpair := walk_pair lookup (Utf8.encode done).length out replaced s (hget 0)
    ((hget 1).trans hnext) hfirst
  rw [hstop, ← hskip, List.length_append]
  exact hpair

/-- A reference is asked for with its name, and what was kept before it is
copied. -/
theorem walk_name {name : List Char} (h : '}' ∉ name) (rest : List Char) :
    let passed := done ++ (kept ++ Token.chars (.reference name))
    let turn := lookup (String.ofList name) s
    walk lookup (String.ofList (passed ++ rest)) (Utf8.encode (done ++ kept)).length
      (Utf8.encode done).length out replaced s =
    walk lookup (String.ofList (passed ++ rest)) (Utf8.encode passed).length
      (Utf8.encode passed).length
      (out ++ String.ofList kept ++ String.ofList (filled name turn.1))
      (replaced || turn.1.isSome) turn.2 := by
  intro passed turn
  have hget := getElem?_bytes (done ++ kept) (Token.chars (.reference name) ++ rest)
  have htext : passed ++ rest = done ++ kept ++ (Token.chars (.reference name) ++ rest) := by
    simp [passed]
  have hopen : passed ++ rest = done ++ kept ++ ['#', '{'] ++ (name ++ '}' :: rest) := by
    simp [passed, Token.chars]
  have hstop : (Utf8.encode passed).length =
      (Utf8.encode (done ++ kept)).length + 2 + (Utf8.encode name).length + 1 := by
    rw [← length_reference, List.append_assoc]
  have hrest := slice?_rest (done ++ kept ++ ['#', '{']) (name ++ '}' :: rest)
  rw [length_open, ← hopen] at hrest
  rw [← htext] at hget
  have hbefore : slice? (String.ofList (passed ++ rest)) (Utf8.encode done).length
      (Utf8.encode (done ++ kept)).length = some (String.ofList kept) :=
    slice?_eq (c := Token.chars (.reference name) ++ rest) htext rfl rfl
  have hname : slice? (String.ofList (passed ++ rest)) ((Utf8.encode (done ++ kept)).length + 2)
      ((Utf8.encode (done ++ kept)).length + 2 + (Utf8.encode name).length) =
      some (String.ofList name) := by
    refine slice?_eq (a := done ++ kept ++ ['#', '{']) (c := '}' :: rest) ?_
      (length_open _).symm ?_
    · rw [hopen, ← List.append_assoc]
    · rw [Utf8.encode_append _ name, List.length_append, length_open]
  have hreference : slice? (String.ofList (passed ++ rest)) (Utf8.encode (done ++ kept)).length
      ((Utf8.encode (done ++ kept)).length + 2 + (Utf8.encode name).length + 1) =
      some (String.ofList (Token.chars (.reference name))) := by
    refine slice?_eq (a := done ++ kept) (c := rest) ?_ rfl (length_reference _ _).symm
    rw [htext, ← List.append_assoc]
  have := walk_reference lookup _ out replaced s (hget 0) (hget 1) hrest (idxOf?_close h rest)
    hbefore hname hreference
  have hfilled : turn.1.getD ("#" ++ String.ofList (Token.chars (.reference name))) =
      String.ofList (filled name turn.1) := by
    cases turn.1 with
    | none => simp [filled, escaped]
    | some answer => simp [filled]
  rw [hstop, ← hfilled]
  exact this

/-- Between two tokens the cursor does what the scan does, where `done` has
been copied and `kept` has not. -/
theorem walk_eq_scan {row : List Token} (h : ∀ t ∈ row, t.Proper) {tail : Tail}
    (ht : tail.Proper) :
    walk lookup (String.ofList (done ++ (kept ++ (written row ++ tail.chars))))
      (Utf8.encode (done ++ kept)).length (Utf8.encode done).length out replaced s =
    some (scan lookup (written row ++ tail.chars) (out ++ String.ofList kept) replaced s) := by
  -- on the row: a token is kept, and a reference copies what was kept before it
  induction row generalizing done kept out replaced s with
  | nil => exact walk_chars lookup done kept out replaced s ht
  | cons t row ih =>
    obtain ⟨hp, hrow⟩ := List.forall_mem_cons.mp h
    rw [written_cons, List.append_assoc]
    cases t with
    | plain c =>
      have := ih done (kept ++ [c]) out replaced s hrow
      rw [Token.chars, List.singleton_append, scan_plain lookup hp, walk_plain lookup _ _ _ _ _ hp]
      simpa only [String.ofList_append, String.append_assoc, List.append_assoc, List.cons_append,
        List.nil_append] using this
    | pair c =>
      have := ih done (kept ++ ['#', c]) out replaced s hrow
      rw [Token.chars, List.cons_append, List.singleton_append, scan_pair lookup hp,
        walk_hash_char lookup _ _ _ _ _ hp]
      simpa only [String.ofList_append, String.append_assoc, List.append_assoc, List.cons_append,
        List.nil_append] using this
    | reference name =>
      have hwalk := walk_name lookup done kept out replaced s hp (written row ++ tail.chars)
      have := ih (done ++ (kept ++ Token.chars (.reference name))) []
        (out ++ String.ofList kept ++ String.ofList (filled name (lookup (String.ofList name) s).1))
        (replaced || (lookup (String.ofList name) s).1.isSome) (lookup (String.ofList name) s).2
        hrow
      rw [scan_reference lookup hp]
      simp only [List.append_assoc, List.append_nil, List.nil_append, String.ofList_nil,
        String.append_empty] at this hwalk ⊢
      rw [hwalk, this]

theorem bytePass_eq_scan (text : String) :
    bytePass lookup text s = some (scan lookup text.toList "" false s) := by
  obtain ⟨proper, proper_tail, written_eq⟩ := reads_tokens text.toList
  have := walk_eq_scan lookup [] [] "" false s proper proper_tail
  simpa [bytePass, written_eq] using this

end

/-- Every text has one reading as tokens with a tail. On it the cursor reads no
byte past the end and takes no piece out of a character, whatever the lookup;
it asks for the names of the row, once each and in order, and for nothing
else, and writes the row with the answers in it and the tail. -/
theorem bytePass_reads (text : String) :
    ∃ row tail, Reads text.toList row tail ∧
      (∀ row' tail', Reads text.toList row' tail' → row' = row ∧ tail' = tail) ∧
      ∀ (σ : Type) (lookup : Lookup σ) (s : σ),
        let asked := askAll lookup (names row) s
        bytePass lookup text s = some ⟨String.ofList (fill row asked.1 ++ tail.chars),
          asked.1.any Option.isSome, asked.2⟩ ∧
        pass lookup text s = ⟨String.ofList (fill row asked.1 ++ tail.chars),
          asked.1.any Option.isSome, asked.2⟩ ∧
        (bytePass (Lookup.recorded lookup) text (s, [])).map (·.state) =
          some (asked.2, names row) := by
  refine ⟨(tokens text.toList).1, (tokens text.toList).2, reads_tokens _, ?_, ?_⟩
  · intro row' tail' h
    rw [tokens_of_reads h]
    exact ⟨rfl, rfl⟩
  · intro σ lookup s asked
    have hpass := pass_eq_fill lookup text s
    refine ⟨?_, hpass, ?_⟩
    · rw [bytePass_eq_scan, ← hpass]
      rfl
    · have hrecorded := pass_eq_fill (Lookup.recorded lookup) text (s, [])
      rw [pass] at hrecorded
      simp only [askAll_recorded, List.nil_append] at hrecorded
      rw [bytePass_eq_scan, hrecorded]
      rfl

example : (bytePass (Lookup.noting fun n => if n = "a" then some "#{b}" else none)
    "é#ü#{a}##{b}#\x7bx#\x7bb\x7d#\x7b" []).map (fun p => (p.text, p.replaced, p.state)) =
      some ("é#ü#{b}##{b}##\x7bx#\x7bb\x7d#\x7b", true, ["x#\x7bb", "a"]) := by cbv

end Phrasebook.Reference
