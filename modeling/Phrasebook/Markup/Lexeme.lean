import Phrasebook.Text.Basic

/-
  What a document is written with: names, text and lexemes. The rules are those of
  XML 1.0, fifth edition, with at most one colon in a qualified name.

  A reference `&name;`, `&#n;` or `&#xh;` stands for one character, taken as it
  is. In an attribute value every literal tab and line end stands for one space.
  In content a literal carriage return, with a line feed after it or without,
  stands for a line feed; only next to a reference is it left alone. A CDATA
  section is content without references.

  A document is a row of lexemes: tags, stretches of text, CDATA sections, comments
  and processing instructions, each with the characters it was written with. A
  document type declaration is no lexeme, so a document that has one is refused.
-/

namespace Phrasebook.Markup

/-! ## Names -/

def isSpace (c : Char) : Bool := c == ' ' || c == '\t' || c == '\n' || c == '\r'

def isAllowed (c : Char) : Bool :=
  if c.toNat < 0x20 then c == '\t' || c == '\n' || c == '\r'
  else c.toNat != 0xFFFE && c.toNat != 0xFFFF

def nameStartRanges : List (Nat × Nat) :=
  [(0xC0, 0xD6), (0xD8, 0xF6), (0xF8, 0x2FF), (0x370, 0x37D), (0x37F, 0x1FFF),
   (0x200C, 0x200D), (0x2070, 0x218F), (0x2C00, 0x2FEF), (0x3001, 0xD7FF),
   (0xF900, 0xFDCF), (0xFDF0, 0xFFFD), (0x10000, 0xEFFFF)]

/-- A character that a name, its colon apart, may start with. -/
def isNameStart (c : Char) : Bool :=
  c.isAlpha || c == '_' ||
    nameStartRanges.any fun (low, high) => low ≤ c.toNat && c.toNat ≤ high

/-- A character that a name, its colon apart, may hold. -/
def isNameChar (c : Char) : Bool :=
  isNameStart c || c.isDigit || c == '-' || c == '.' || c.toNat == 0xB7 ||
    (0x300 ≤ c.toNat && c.toNat ≤ 0x36F) || (0x203F ≤ c.toNat && c.toNat ≤ 0x2040)

/-- A name in two parts, `space:base`; without a colon `space` is empty. -/
structure QName where
  space : List Char
  base : List Char
  deriving DecidableEq, Repr

/-- A part of a name starts as a name does. -/
def startsName : List Char → Bool
  | [] => false
  | c :: _ => isNameStart c

/-- The two parts of the characters of a name, if they are one. The first part
may be empty. -/
def QName.ofChars? (chars : List Char) : Option QName :=
  match chars.dropWhile (· != ':') with
  | [] => if startsName chars then some ⟨[], chars⟩ else none
  | _ :: base =>
    let space := chars.takeWhile (· != ':')
    if (space.isEmpty || startsName space) && startsName base && !base.contains ':' then
      some ⟨space, base⟩
    else none

/-- The name at the start of a text, and the text after it. -/
def QName.read? (text : List Char) : Option (QName × List Char) :=
  let inName (c : Char) := isNameChar c || c == ':'
  (QName.ofChars? (text.takeWhile inName)).map fun name => (name, text.dropWhile inName)

theorem QName.read?_length {text rest : List Char} {name : QName}
    (h : QName.read? text = some (name, rest)) : rest.length ≤ text.length := by
  unfold QName.read? at h
  obtain ⟨_, _, h⟩ := Option.map_eq_some_iff.1 h
  simp only [Prod.mk.injEq] at h
  exact h.2 ▸ Text.length_dropWhile_le ..

/-! ## Text -/

/-- A character as the markup has it: written out, or by a reference. -/
inductive Glyph where
  | literal (c : Char)
  | referenced (c : Char)
  deriving DecidableEq, Repr

/-- The character with a number below 2^32; one that is none gives U+FFFD. -/
def charOfNumber? (n : Nat) : Option Char :=
  let c := if n.isValidChar then Char.ofNat n else '\uFFFD'
  if n < UInt32.size ∧ isAllowed c then some c else none

def referent? : List Char → Option Char
  | '#' :: 'x' :: digits => (Text.number? 16 digits).bind charOfNumber?
  | '#' :: digits => (Text.number? 10 digits).bind charOfNumber?
  | body =>
    if body = "amp".toList then some '&'
    else if body = "lt".toList then some '<'
    else if body = "gt".toList then some '>'
    else if body = "quot".toList then some '"'
    else if body = "apos".toList then some '\''
    else none

/-- The characters of a stretch of markup, or none if a reference is malformed. -/
def glyphs? (markup : List Char) : Option (List Glyph) :=
  go markup []
where
  go : List Char → List Glyph → Option (List Glyph)
    | [], out => some out.reverse
    | '&' :: rest, out =>
      match h : rest.dropWhile (· != ';') with
      | [] => none
      | _ :: after =>
        have := Text.length_lt_of_dropWhile_eq h
        match referent? (rest.takeWhile (· != ';')) with
        | some c => go after (.referenced c :: out)
        | none => none
    | c :: rest, out => go rest (.literal c :: out)
  termination_by markup => markup.length

/-- A literal character after the text `out`, which is reversed: a carriage
return before it becomes a line feed, and so does one that ends the text. -/
def pushLiteral (c : Char) (last : Bool) (out : List Char) : List Char :=
  match out with
  | '\r' :: before =>
    if last && c == '\r' then '\n' :: '\n' :: before
    else if c == '\n' then '\n' :: before
    else c :: '\n' :: before
  | _ => if last && c == '\r' then '\n' :: out else c :: out

/-- The text of content. `near` says whether a reference has just gone by; the
character behind one is taken as it is. -/
def contentText (glyphs : List Glyph) : List Char :=
  go [] false glyphs
where
  go : (out : List Char) → (near : Bool) → List Glyph → List Char
    | out, _, [] => out.reverse
    | out, _, .referenced c :: rest => go (c :: out) true rest
    | out, true, .literal c :: rest => go (c :: out) false rest
    | out, false, .literal c :: rest => go (pushLiteral c rest.isEmpty out) false rest

def attributeText : List Glyph → List Char
  | [] => []
  | .literal '\r' :: .literal '\n' :: rest => ' ' :: attributeText rest
  | .literal c :: rest => (if isSpace c then ' ' else c) :: attributeText rest
  | .referenced c :: rest => c :: attributeText rest

/-! ## Lexemes -/

/-- A lexeme. Names and values are as written. -/
inductive Lexeme where
  | start (name : QName) (attributes : List (QName × List Char)) (closed : Bool)
  | close (name : QName)
  | text (markup : List Char)
  | verbatim (text : List Char)
  | comment (text : List Char)
  | instruction (target data : List Char)
  deriving Repr

/-- The text before the first `stop`, and the text after it. -/
def until? (stop text : List Char) : Option (List Char × List Char) :=
  go text []
where
  go (text before : List Char) : Option (List Char × List Char) :=
    if stop.isPrefixOf text then some (before.reverse, text.drop stop.length)
    else match text with
      | [] => none
      | c :: rest => go rest (c :: before)

theorem until?_length {stop text before rest : List Char}
    (h : until? stop text = some (before, rest)) : rest.length ≤ text.length := by
  have key : ∀ (text acc : List Char), until?.go stop text acc = some (before, rest) →
      rest.length ≤ text.length := by
    intro text
    induction text with
    | nil =>
      intro acc h
      rw [until?.go] at h
      split at h
      · simp only [Option.some.injEq, Prod.mk.injEq] at h
        simp [← h.2]
      · simp at h
    | cons c tail ih =>
      intro acc h
      rw [until?.go] at h
      split at h
      · simp only [Option.some.injEq, Prod.mk.injEq] at h
        rw [← h.2, List.length_drop]
        exact Nat.sub_le ..
      · exact Nat.le_succ_of_le (ih _ h)
  exact key text [] h

/-- What `until?` finds, if the text before holds allowed characters only. -/
def allowedUntil? (stop text : List Char) : Option (List Char × List Char) :=
  (until? stop text).filter fun found => found.1.all isAllowed

theorem allowedUntil?_length {stop text before rest : List Char}
    (h : allowedUntil? stop text = some (before, rest)) : rest.length ≤ text.length := by
  unfold allowedUntil? at h
  exact until?_length (Option.filter_eq_some_iff.1 h).1

/-- Whether `part` stands anywhere in `text`. -/
def holds (part : List Char) : List Char → Bool
  | [] => part.isEmpty
  | c :: rest => part.isPrefixOf (c :: rest) || holds part rest

def skipSpace (text : List Char) : List Char := text.dropWhile isSpace

theorem skipSpace_length (text : List Char) : (skipSpace text).length ≤ text.length :=
  Text.length_dropWhile_le ..

/-- A value in quotes, single or double, without `<`. -/
def quoted? : List Char → Option (List Char × List Char)
  | [] => none
  | quote :: text =>
    if quote == '"' || quote == '\'' then
      match text.dropWhile (· != quote) with
      | [] => none
      | _ :: rest =>
        let value := text.takeWhile (· != quote)
        if value.all isAllowed && !value.contains '<' then some (value, rest) else none
    else none

theorem quoted?_length {text value rest : List Char} (h : quoted? text = some (value, rest)) :
    rest.length < text.length := by
  unfold quoted? at h
  split at h
  · simp at h
  · split at h
    · split at h
      · simp at h
      · rename_i hd
        have := Text.length_lt_of_dropWhile_eq hd
        simp only [Option.ite_none_right_eq_some, Option.some.injEq, Prod.mk.injEq] at h
        obtain ⟨_, _, rfl⟩ := h
        simp only [List.length_cons]
        omega
    · simp at h

/-- An attribute: a name, `=` and a value in quotes. -/
def attribute? (text : List Char) : Option ((QName × List Char) × List Char) :=
  match QName.read? text with
  | none => none
  | some (name, rest) =>
    match skipSpace rest with
    | '=' :: rest =>
      match quoted? (skipSpace rest) with
      | none => none
      | some (value, rest) => some ((name, value), rest)
    | _ => none

theorem attribute?_length {text rest : List Char} {a : QName × List Char}
    (h : attribute? text = some (a, rest)) : rest.length < text.length := by
  unfold attribute? at h
  split at h
  · simp at h
  · rename_i name behind hn
    have := QName.read?_length hn
    have hs := skipSpace_length behind
    split at h
    · rename_i found he
      rw [he, List.length_cons] at hs
      have := skipSpace_length found
      split at h
      · simp at h
      · rename_i value last hq
        have := quoted?_length hq
        simp only [Option.some.injEq, Prod.mk.injEq] at h
        obtain ⟨_, rfl⟩ := h
        omega
    · simp at h

/-- The attributes of a tag up to its end: `>`, or `/>` for a closed one. An
attribute follows white space. -/
def attributes? (text : List Char) : Option ((List (QName × List Char) × Bool) × List Char) :=
  go text []
where
  go (text : List Char) (found : List (QName × List Char)) :
      Option ((List (QName × List Char) × Bool) × List Char) :=
    match skipSpace text with
    | '/' :: '>' :: rest => some ((found.reverse, true), rest)
    | '>' :: rest => some ((found.reverse, false), rest)
    | next =>
      if next.length < text.length then
        match h : attribute? next with
        | some (a, rest) =>
          have := attribute?_length h
          go rest (a :: found)
        | none => none
      else none
  termination_by text.length

theorem attributes?_length {text rest : List Char} {found : List (QName × List Char) × Bool}
    (h : attributes? text = some (found, rest)) : rest.length < text.length := by
  have key : ∀ (text : List Char) (acc : List (QName × List Char)),
      attributes?.go text acc = some (found, rest) → rest.length < text.length := by
    intro text acc
    fun_induction attributes?.go text acc with
    | case1 text _ behind hs =>
      have := skipSpace_length text
      rw [hs] at this
      simp only [List.length_cons] at this
      intro h
      simp only [Option.some.injEq, Prod.mk.injEq] at h
      obtain ⟨_, rfl⟩ := h
      omega
    | case2 text _ behind hs =>
      have := skipSpace_length text
      rw [hs] at this
      simp only [List.length_cons] at this
      intro h
      simp only [Option.some.injEq, Prod.mk.injEq] at h
      obtain ⟨_, rfl⟩ := h
      omega
    | case3 text _ _ _ hlt a behind ha _ ih =>
      have := attribute?_length ha
      intro h
      have := ih h
      omega
    | case4 => simp
    | case5 => simp
  exact key text [] h

/-- A comment behind its `<!--`: it may not hold `--` nor end in `-`. -/
def comment? (text : List Char) : Option (Lexeme × List Char) :=
  match allowedUntil? "-->".toList text with
  | none => none
  | some (body, rest) =>
    if holds "--".toList body || body.getLast? == some '-' then none
    else some (.comment body, rest)

theorem comment?_length {text rest : List Char} {l : Lexeme}
    (h : comment? text = some (l, rest)) : rest.length ≤ text.length := by
  unfold comment? at h
  split at h
  · simp at h
  · rename_i hu
    have := allowedUntil?_length hu
    simp only [Option.ite_none_left_eq_some, Option.some.injEq, Prod.mk.injEq] at h
    obtain ⟨_, _, rfl⟩ := h
    exact this

def verbatim? (text : List Char) : Option (Lexeme × List Char) :=
  let opening := "[CDATA[".toList
  if opening.isPrefixOf text then
    match allowedUntil? "]]>".toList (text.drop opening.length) with
    | none => none
    | some (body, rest) => some (.verbatim body, rest)
  else none

theorem verbatim?_length {text rest : List Char} {l : Lexeme}
    (h : verbatim? text = some (l, rest)) : rest.length ≤ text.length := by
  simp only [verbatim?] at h
  split at h
  · split at h
    · simp at h
    · rename_i hu
      have := allowedUntil?_length hu
      simp only [Option.some.injEq, Prod.mk.injEq] at h
      obtain ⟨_, rfl⟩ := h
      rw [List.length_drop] at this
      omega
  · simp at h

/-- A processing instruction behind its `<?`. The XML declaration is none. -/
def instruction? (text : List Char) : Option (Lexeme × List Char) :=
  let inName (c : Char) := isNameChar c || c == ':'
  let target := text.takeWhile inName
  if "xml ".toList.isPrefixOf text then none
  else if startsName target || target.head? == some ':' then
    match allowedUntil? "?>".toList (skipSpace (text.dropWhile inName)) with
    | none => none
    | some (data, rest) => some (.instruction target data, rest)
  else none

theorem instruction?_length {text rest : List Char} {l : Lexeme}
    (h : instruction? text = some (l, rest)) : rest.length ≤ text.length := by
  simp only [instruction?] at h
  split at h
  · simp at h
  · split at h
    · split at h
      · simp at h
      · rename_i hu
        have := allowedUntil?_length hu
        simp only [Option.some.injEq, Prod.mk.injEq] at h
        obtain ⟨_, rfl⟩ := h
        exact Nat.le_trans this
          (Nat.le_trans (skipSpace_length _) (Text.length_dropWhile_le ..))
    · simp at h

def close? (text : List Char) : Option (Lexeme × List Char) :=
  match QName.read? text with
  | none => none
  | some (name, rest) =>
    match skipSpace rest with
    | '>' :: rest => some (.close name, rest)
    | _ => none

theorem close?_length {text rest : List Char} {l : Lexeme}
    (h : close? text = some (l, rest)) : rest.length ≤ text.length := by
  unfold close? at h
  split at h
  · simp at h
  · rename_i name behind hn
    have := QName.read?_length hn
    have hs := skipSpace_length behind
    split at h
    · rename_i he
      rw [he, List.length_cons] at hs
      simp only [Option.some.injEq, Prod.mk.injEq] at h
      obtain ⟨_, rfl⟩ := h
      omega
    · simp at h

def start? (text : List Char) : Option (Lexeme × List Char) :=
  match QName.read? text with
  | none => none
  | some (name, rest) =>
    match attributes? rest with
    | none => none
    | some ((found, closed), rest) => some (.start name found closed, rest)

theorem start?_length {text rest : List Char} {l : Lexeme}
    (h : start? text = some (l, rest)) : rest.length ≤ text.length := by
  unfold start? at h
  split at h
  · simp at h
  · rename_i hn
    have := QName.read?_length hn
    split at h
    · simp at h
    · rename_i ha
      have := attributes?_length ha
      simp only [Option.some.injEq, Prod.mk.injEq] at h
      obtain ⟨_, rfl⟩ := h
      omega

/-- The lexeme that a text with the first character `c` starts with. -/
def Lexeme.read? (c : Char) (text : List Char) : Option (Lexeme × List Char) :=
  if c == '<' then
    match text with
    | '!' :: '-' :: '-' :: rest => comment? rest
    | '!' :: rest => verbatim? rest
    | '?' :: rest => instruction? rest
    | '/' :: rest => close? rest
    | _ => start? text
  else
    let markup := c :: text.takeWhile (· != '<')
    if markup.all isAllowed && !holds "]]>".toList markup then
      some (.text markup, text.dropWhile (· != '<'))
    else none

theorem Lexeme.read?_length {c : Char} {text rest : List Char} {l : Lexeme}
    (h : Lexeme.read? c text = some (l, rest)) : rest.length ≤ text.length := by
  unfold Lexeme.read? at h
  split at h
  · split at h
    · exact Nat.le_trans (comment?_length h) (by simp only [List.length_cons]; omega)
    · exact Nat.le_succ_of_le (verbatim?_length h)
    · exact Nat.le_succ_of_le (instruction?_length h)
    · exact Nat.le_succ_of_le (close?_length h)
    · exact start?_length h
  · simp only [Option.ite_none_right_eq_some, Option.some.injEq, Prod.mk.injEq] at h
    obtain ⟨_, _, rfl⟩ := h
    exact Text.length_dropWhile_le ..

def lexemes? (text : List Char) : Option (List Lexeme) :=
  go text []
where
  go (text : List Char) (found : List Lexeme) : Option (List Lexeme) :=
    match text with
    | [] => some found.reverse
    | c :: text =>
      match h : Lexeme.read? c text with
      | some (l, rest) =>
        have := Lexeme.read?_length h
        go rest (l :: found)
      | none => none
  termination_by text.length

end Phrasebook.Markup
