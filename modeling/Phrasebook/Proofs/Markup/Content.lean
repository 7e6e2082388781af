import Mathlib
import Phrasebook.Markup.Lexeme
import Phrasebook.Text.Basic

/-
  Texts written in markup, and what is read of them.

  A character is written as it is or by a reference to its name or number. Line
  ends and tabs are safe only as references: written out, they may be changed in
  reading. White space around a text may be changed as well, but it stays white
  space, and it is trimmed off.

  What is proved:
    1. `harmless_letters` — the markup of a text ends neither a tag nor a value.
    2. `readAs_letters`, `readAs_literals` — the glyphs of a text with references
       and of one without.
    3. `attributeText_letters` — in an attribute value a text is read as it was
       written.
    4. `Stretch.Exact.trim_contentText` — so it is in content, with white space
       around it.
-/

namespace Phrasebook

namespace Text

theorem trim_append_left {blanks : List Char} (h : ∀ c ∈ blanks, isBlank c = true)
    (text : List Char) : trim (blanks ++ text) = trim text := by
  rw [trim, List.dropWhile_append_of_pos h]
  rfl

theorem trim_append_right {blanks : List Char} (h : ∀ c ∈ blanks, isBlank c = true)
    (text : List Char) : trim (text ++ blanks) = trim text := by
  have hreverse : ∀ c ∈ blanks.reverse, isBlank c = true := by
    intro c hc
    exact h c (List.mem_reverse.mp hc)
  rw [trim, trim, List.dropWhile_append]
  split
  · next hempty =>
    -- nothing of the text is left either way
    have hnil : blanks.dropWhile isBlank = [] := by
      rw [List.dropWhile_eq_nil_iff]
      exact h
    rw [List.isEmpty_iff.mp hempty, hnil]
  · rw [List.reverse_append, List.dropWhile_append_of_pos hreverse]

theorem not_isBlank_of_trim {text : List Char} {c : Char} (h : trim text = text)
    (hc : text.getLast? = some c) : isBlank c = false := by
  have hreverse : (text.dropWhile isBlank).reverse.dropWhile isBlank = text.reverse := by
    rw [← List.reverse_eq_iff]
    exact h
  rw [← List.head?_reverse, ← hreverse] at hc
  have hnot := List.head?_dropWhile_not isBlank (text.dropWhile isBlank).reverse
  rw [hc] at hnot
  exact hnot

theorem digit_of_number? {radix n : Nat} {digits : List Char} (h : number? radix digits = some n) :
    ∀ c ∈ digits, (digit? radix c).isSome = true := by
  have key : ∀ (digits : List Char) (before : Nat),
      digits.foldlM (fun n c => (digit? radix c).map (n * radix + ·)) before = some n →
        ∀ c ∈ digits, (digit? radix c).isSome = true := by
    intro digits
    induction digits with
    | nil => simp
    | cons d digits ih =>
      intro before hfold
      rw [List.foldlM_cons] at hfold
      cases hd : digit? radix d with
      | none => simp [hd] at hfold
      | some value =>
        simp only [hd, Option.map_some, Option.bind_eq_bind, Option.bind_some] at hfold
        intro c hc
        cases List.mem_cons.mp hc with
        | inl heq => rw [heq, hd]; rfl
        | inr hmem => exact ih _ hfold c hmem
  rw [number?] at h
  split at h
  · simp at h
  · exact key digits 0 h

theorem digit_range {radix : Nat} (hradix : radix ≤ 16) {c : Char}
    (h : (digit? radix c).isSome = true) :
    (0x30 ≤ c.toNat ∧ c.toNat ≤ 0x39) ∨ (0x41 ≤ c.toNat ∧ c.toNat ≤ 0x46) ∨
      (0x61 ≤ c.toNat ∧ c.toNat ≤ 0x66) := by
  by_cases hdigit : c.isDigit = true
  · left
    simpa [Char.isDigit, UInt32.le_iff_toNat_le] using hdigit
  · right
    by_cases hlower : 'a' ≤ c ∧ c ≤ 'f'
    · exact .inr hlower
    · by_cases hupper : 'A' ≤ c ∧ c ≤ 'F'
      · exact .inl hupper
      · have hnone : digit? radix c = none := by
          simp only [digit?, hdigit, hlower, hupper]
          exact if_neg (Nat.not_lt.mpr hradix)
        rw [hnone] at h
        cases h

end Text

namespace Markup

/-! ## Letters -/

inductive Form where
  | plain
  | named (name : String)
  | decimal (digits : List Char)
  | hex (digits : List Char)
  deriving DecidableEq

structure Letter where
  char : Char
  form : Form
  deriving DecidableEq

/-- The names that characters have in references. -/
def entities : List (String × Char) :=
  [("amp", '&'), ("lt", '<'), ("gt", '>'), ("quot", '"'), ("apos", '\'')]

/-- The characters that are not written plainly. -/
def escaped : List Char := ['&', '<', '>', '"', '\t', '\n', '\r']

namespace Letter

/-- What stands between `&` and `;`, if the character is written by a reference. -/
def reference? (l : Letter) : Option (List Char) :=
  match l.form with
  | .plain => none
  | .named name => some name.toList
  | .decimal digits => some ('#' :: digits)
  | .hex digits => some ('#' :: 'x' :: digits)

def chars (l : Letter) : List Char :=
  match l.reference? with
  | none => [l.char]
  | some body => '&' :: body ++ [';']

/-- The character is one that markup may have, and its form stands for it. -/
def Exact (l : Letter) : Prop :=
  isAllowed l.char = true ∧
    match l.form with
    | .plain => l.char ∉ escaped
    | .named name => (name, l.char) ∈ entities
    | .decimal digits => Text.number? 10 digits = some l.char.toNat
    | .hex digits => Text.number? 16 digits = some l.char.toNat

instance (l : Letter) : Decidable l.Exact :=
  match l with
  | ⟨_, .plain⟩ => inferInstanceAs (Decidable (_ ∧ _))
  | ⟨_, .named _⟩ => inferInstanceAs (Decidable (_ ∧ _))
  | ⟨_, .decimal _⟩ => inferInstanceAs (Decidable (_ ∧ _))
  | ⟨_, .hex _⟩ => inferInstanceAs (Decidable (_ ∧ _))

def glyph (l : Letter) : Glyph :=
  match l.form with
  | .plain => .literal l.char
  | _ => .referenced l.char

end Letter

def lettersText (letters : List Letter) : List Char := letters.map Letter.char

def lettersMarkup (letters : List Letter) : List Char := letters.flatMap Letter.chars

theorem charOfNumber?_toNat {c : Char} (h : isAllowed c = true) :
    charOfNumber? c.toNat = some c := by
  have hsize : c.toNat < UInt32.size := c.val.toNat_lt
  have hvalid : c.toNat.isValidChar := c.valid
  simp [charOfNumber?, hvalid, hsize, h]

theorem reference?_spec {l : Letter} (h : l.Exact) {body : List Char}
    (hbody : l.reference? = some body) :
    ';' ∉ body ∧ referent? body = some l.char ∧ l.glyph = .referenced l.char := by
  obtain ⟨c, form⟩ := l
  obtain ⟨hallowed, hform⟩ := h
  cases form with
  | plain => simp [Letter.reference?] at hbody
  | named name =>
    cases hbody
    simp only [entities, List.mem_cons, Prod.mk.injEq, List.not_mem_nil, or_false] at hform
    rcases hform with ⟨rfl, rfl⟩ | ⟨rfl, rfl⟩ | ⟨rfl, rfl⟩ | ⟨rfl, rfl⟩ | ⟨rfl, rfl⟩
    all_goals exact ⟨by decide, rfl, rfl⟩
  | decimal digits =>
    cases hbody
    have hdigits := Text.digit_of_number? hform
    refine ⟨?_, ?_, rfl⟩
    · intro hmem
      cases List.mem_cons.mp hmem with
      | inl heq => exact absurd heq (by decide)
      | inr hmem => exact absurd (hdigits _ hmem) (by decide)
    · -- the first digit is no `x`, so this is not read as a hexadecimal number
      rw [referent?.eq_def]
      split
      · next rest heq =>
        cases heq
        exact absurd (hdigits 'x' (by simp)) (by decide)
      · next rest _ heq =>
        cases heq
        rw [hform]
        exact charOfNumber?_toNat hallowed
      · next hnot => exact absurd rfl (hnot digits)
  | hex digits =>
    cases hbody
    have hdigits := Text.digit_of_number? hform
    refine ⟨?_, ?_, rfl⟩
    · intro hmem
      simp only [List.mem_cons] at hmem
      rcases hmem with heq | heq | hmem
      · exact absurd heq (by decide)
      · exact absurd heq (by decide)
      · exact absurd (hdigits _ hmem) (by decide)
    · rw [referent?, hform]
      exact charOfNumber?_toNat hallowed

/-- The character can stand in text and in a value in quotes. -/
def Harmless (c : Char) : Prop :=
  isAllowed c = true ∧ c ≠ '<' ∧ c ≠ '>' ∧ c ≠ '"'

instance : DecidablePred Harmless :=
  fun _ => inferInstanceAs (Decidable (_ ∧ _))

theorem all_harmless {text : List Char} (h : ∀ c ∈ text, Harmless c) :
    text.all isAllowed = true ∧ '<' ∉ text ∧ '>' ∉ text ∧ '"' ∉ text := by
  have hnot : ∀ c, ¬ Harmless c → c ∉ text := fun c hc hmem => hc (h c hmem)
  refine ⟨?_, hnot _ (by decide), hnot _ (by decide), hnot _ (by decide)⟩
  rw [List.all_eq_true]
  intro c hc
  exact (h c hc).1

theorem harmless_of_digit {radix : Nat} (hradix : radix ≤ 16) {c : Char}
    (h : (Text.digit? radix c).isSome = true) : Harmless c := by
  have hrange := Text.digit_range hradix h
  refine ⟨?_, ?_, ?_, ?_⟩
  · rw [isAllowed, if_neg (by omega)]
    simp only [bne_iff_ne, Bool.and_eq_true]
    omega
  all_goals
    intro heq
    rw [heq] at hrange
    revert hrange
    decide

theorem harmless_letter {l : Letter} (h : l.Exact) : ∀ c ∈ l.chars, Harmless c := by
  obtain ⟨char, form⟩ := l
  obtain ⟨hallowed, hform⟩ := h
  cases form with
  | plain =>
    intro c hc
    rw [List.mem_singleton.mp hc]
    simp only [escaped, List.mem_cons, List.not_mem_nil, or_false, not_or] at hform
    exact ⟨hallowed, hform.2.1, hform.2.2.1, hform.2.2.2.1⟩
  | named name =>
    simp only [entities, List.mem_cons, Prod.mk.injEq, List.not_mem_nil, or_false] at hform
    rcases hform with ⟨rfl, rfl⟩ | ⟨rfl, rfl⟩ | ⟨rfl, rfl⟩ | ⟨rfl, rfl⟩ | ⟨rfl, rfl⟩
    all_goals simp [Letter.chars, Letter.reference?, Harmless, isAllowed]
  | decimal digits =>
    have hdigits := Text.digit_of_number? hform
    intro c hc
    simp only [Letter.chars, Letter.reference?, List.cons_append, List.mem_cons, List.mem_append,
      List.not_mem_nil, or_false] at hc
    rcases hc with rfl | rfl | hc | rfl
    · decide
    · decide
    · exact harmless_of_digit (by decide) (hdigits c hc)
    · decide
  | hex digits =>
    have hdigits := Text.digit_of_number? hform
    intro c hc
    simp only [Letter.chars, Letter.reference?, List.cons_append, List.mem_cons, List.mem_append,
      List.not_mem_nil, or_false] at hc
    rcases hc with rfl | rfl | rfl | hc | rfl
    · decide
    · decide
    · decide
    · exact harmless_of_digit (by decide) (hdigits c hc)
    · decide

theorem harmless_letters {letters : List Letter} (h : ∀ l ∈ letters, l.Exact) :
    ∀ c ∈ lettersMarkup letters, Harmless c := by
  intro c hc
  obtain ⟨l, hl, hmem⟩ := List.mem_flatMap.mp hc
  exact harmless_letter (h l hl) c hmem

/-! ## Glyphs -/

/-- The markup is read as glyphs wherever it stands. -/
def ReadAs (markup : List Char) (glyphs : List Glyph) : Prop :=
  ∀ rest out, glyphs?.go (markup ++ rest) out = glyphs?.go rest (glyphs.reverse ++ out)

theorem ReadAs.append {markup markup' : List Char} {glyphs glyphs' : List Glyph}
    (h : ReadAs markup glyphs) (h' : ReadAs markup' glyphs') :
    ReadAs (markup ++ markup') (glyphs ++ glyphs') := by
  intro rest out
  rw [List.append_assoc, h, h', List.reverse_append, List.append_assoc]

theorem ReadAs.glyphs? {markup : List Char} {glyphs : List Glyph} (h : ReadAs markup glyphs) :
    Markup.glyphs? markup = some glyphs := by
  have hread := h [] []
  rw [List.append_nil, List.append_nil] at hread
  rw [Markup.glyphs?, hread, glyphs?.go, List.reverse_reverse]

theorem readAs_literal {c : Char} (h : c ≠ '&') : ReadAs [c] [.literal c] := by
  intro rest out
  rw [List.singleton_append, glyphs?.go]
  · rfl
  · intro hc
    exact absurd hc h

theorem readAs_reference {body : List Char} {c : Char} (hbody : ';' ∉ body)
    (hc : referent? body = some c) : ReadAs ('&' :: body ++ [';']) [.referenced c] := by
  intro rest out
  have htake := Text.takeWhile_ne rest hbody
  have hdrop := Text.dropWhile_ne rest hbody
  have htext : '&' :: body ++ [';'] ++ rest = '&' :: (body ++ ';' :: rest) := by simp
  rw [htext, glyphs?.go]
  split
  · next hnil =>
    rw [hdrop] at hnil
    cases hnil
  · next stop after hstop =>
    rw [hdrop] at hstop
    cases hstop
    rw [htake, hc]
    rfl

theorem readAs_letter {l : Letter} (h : l.Exact) : ReadAs l.chars [l.glyph] := by
  rw [Letter.chars]
  cases hreference : l.reference? with
  | none =>
    have hplain : l.form = .plain := by
      cases hform : l.form with
      | plain => rfl
      | _ => simp [Letter.reference?, hform] at hreference
    have hnot : l.char ∉ escaped := by
      have := h.2
      rw [hplain] at this
      exact this
    rw [Letter.glyph, hplain]
    apply readAs_literal
    intro heq
    exact hnot (heq ▸ List.mem_cons_self)
  | some body =>
    obtain ⟨hbody, hreferent, hglyph⟩ := reference?_spec h hreference
    rw [hglyph]
    exact readAs_reference hbody hreferent

theorem readAs_letters {letters : List Letter} (h : ∀ l ∈ letters, l.Exact) :
    ReadAs (lettersMarkup letters) (letters.map Letter.glyph) := by
  induction letters with
  | nil => exact fun rest out => rfl
  | cons l letters ih =>
    obtain ⟨hl, hrest⟩ := List.forall_mem_cons.mp h
    exact (readAs_letter hl).append (ih hrest)

theorem readAs_literals {text : List Char} (h : '&' ∉ text) :
    ReadAs text (text.map .literal) := by
  induction text with
  | nil => exact fun rest out => rfl
  | cons c text ih =>
    rw [List.mem_cons, not_or] at h
    exact (readAs_literal (Ne.symm h.1)).append (ih h.2)

/-! ## Attribute values -/

theorem attributeText_letters {letters : List Letter} (h : ∀ l ∈ letters, l.Exact) :
    attributeText (letters.map Letter.glyph) = lettersText letters := by
  induction letters with
  | nil => rfl
  | cons l letters ih =>
    obtain ⟨hl, hrest⟩ := List.forall_mem_cons.mp h
    obtain ⟨c, form⟩ := l
    have htail := ih hrest
    cases form with
    | plain =>
      have hescaped : c ∉ escaped := hl.2
      simp only [escaped, List.mem_cons, List.not_mem_nil, or_false, not_or] at hescaped
      have hread : attributeText (.literal c :: letters.map Letter.glyph) =
          (if isSpace c then ' ' else c) :: attributeText (letters.map Letter.glyph) := by
        rw [attributeText]
        intro rest _ hc
        exact hescaped.2.2.2.2.2.2 hc
      have hspace : (if isSpace c then ' ' else c) = c := by
        split
        · next hc =>
          simp only [isSpace, hescaped, beq_iff_eq, Bool.or_eq_true, or_false] at hc
          exact hc.symm
        · rfl
      show attributeText (.literal c :: letters.map Letter.glyph) = c :: lettersText letters
      rw [hread, hspace, htail]
    | named name =>
      show c :: attributeText (letters.map Letter.glyph) = c :: lettersText letters
      rw [htail]
    | decimal digits =>
      show c :: attributeText (letters.map Letter.glyph) = c :: lettersText letters
      rw [htail]
    | hex digits =>
      show c :: attributeText (letters.map Letter.glyph) = c :: lettersText letters
      rw [htail]

/-! ## Content -/

def Blank (text : List Char) : Prop := ∀ c ∈ text, Text.isBlank c = true

instance (text : List Char) : Decidable (Blank text) :=
  decidable_of_iff (text.all Text.isBlank = true) List.all_eq_true

theorem blank_cons {c : Char} {text : List Char} :
    Blank (c :: text) ↔ Text.isBlank c = true ∧ Blank text :=
  List.forall_mem_cons

/-- A literal blank adds blanks to those before it, and changes no others. -/
theorem pushLiteral_blank {c : Char} (hc : Text.isBlank c = true) (last : Bool)
    {blanks out : List Char} (hblanks : Blank blanks) (hout : out.head? ≠ some '\r') :
    ∃ blanks', Blank blanks' ∧ pushLiteral c last (blanks ++ out) = blanks' ++ out := by
  have hfeed : Text.isBlank '\n' = true := by decide
  have hone : ∃ d, Text.isBlank d = true ∧
      (if last && c == '\r' then '\n' :: (blanks ++ out) else c :: (blanks ++ out)) =
        d :: (blanks ++ out) := by
    split
    · exact ⟨'\n', hfeed, rfl⟩
    · exact ⟨c, hc, rfl⟩
  rw [pushLiteral.eq_def]
  split
  · next before heq =>
    cases blanks with
    | nil =>
      rw [List.nil_append] at heq
      rw [heq] at hout
      exact absurd rfl hout
    | cons b blanks =>
      cases heq
      have htail := (blank_cons.mp hblanks).2
      split
      · exact ⟨'\n' :: '\n' :: blanks, blank_cons.mpr ⟨hfeed, blank_cons.mpr ⟨hfeed, htail⟩⟩, rfl⟩
      · split
        · exact ⟨'\n' :: blanks, blank_cons.mpr ⟨hfeed, htail⟩, rfl⟩
        · exact ⟨c :: '\n' :: blanks, blank_cons.mpr ⟨hc, blank_cons.mpr ⟨hfeed, htail⟩⟩, rfl⟩
  · obtain ⟨d, hd, heq⟩ := hone
    exact ⟨d :: blanks, blank_cons.mpr ⟨hd, hblanks⟩, heq⟩

theorem contentText_go_blank {text : List Char} (htext : Blank text) {blanks out : List Char}
    (hblanks : Blank blanks) (hout : out.head? ≠ some '\r') (near : Bool) (rest : List Glyph) :
    ∃ blanks' near', Blank blanks' ∧
      contentText.go (blanks ++ out) near (text.map .literal ++ rest) =
        contentText.go (blanks' ++ out) near' rest := by
  induction text generalizing blanks near with
  | nil => exact ⟨blanks, near, hblanks, rfl⟩
  | cons c text ih =>
    obtain ⟨hc, htail⟩ := blank_cons.mp htext
    cases near with
    | true =>
      obtain ⟨blanks', near', hblanks', hgo⟩ := ih htail (blank_cons.mpr ⟨hc, hblanks⟩) false
      refine ⟨blanks', near', hblanks', ?_⟩
      rw [← hgo]
      rfl
    | false =>
      obtain ⟨more, hmore, hpush⟩ := pushLiteral_blank hc
        (List.map Glyph.literal text ++ rest).isEmpty hblanks hout
      obtain ⟨blanks', near', hblanks', hgo⟩ := ih htail hmore false
      refine ⟨blanks', near', hblanks', ?_⟩
      rw [← hgo, ← hpush]
      rfl

/-- Where a return is the last character read, it was written by a reference. -/
def Guarded (out : List Char) (near : Bool) : Prop := out.head? = some '\r' → near = true

theorem Letter.char_of_plain {l : Letter} (h : l.Exact) (hplain : l.form = .plain) :
    l.char ≠ '\n' ∧ l.char ≠ '\r' := by
  have hescaped := h.2
  rw [hplain] at hescaped
  simp only [escaped, List.mem_cons, List.not_mem_nil, or_false, not_or] at hescaped
  exact ⟨hescaped.2.2.2.2.2.1, hescaped.2.2.2.2.2.2⟩

theorem Letter.glyph_cases {l : Letter} (h : l.Exact) :
    (l.glyph = .literal l.char ∧ l.char ≠ '\n' ∧ l.char ≠ '\r') ∨
      l.glyph = .referenced l.char := by
  cases hform : l.form with
  | plain => exact .inl ⟨by rw [glyph, hform], char_of_plain h hform⟩
  | named | decimal | hex => exact .inr (by rw [glyph, hform])

/-- Written letters are added as they are, where nothing before them waits for a
line feed. -/
theorem contentText_go_letters {letters : List Letter} (h : ∀ l ∈ letters, l.Exact)
    {out : List Char} {near : Bool} (hguarded : Guarded out near) (rest : List Glyph) :
    ∃ near', contentText.go out near (letters.map Letter.glyph ++ rest) =
        contentText.go ((lettersText letters).reverse ++ out) near' rest := by
  induction letters generalizing out near with
  | nil => exact ⟨near, rfl⟩
  | cons l letters ih =>
    obtain ⟨hl, hrest⟩ := List.forall_mem_cons.mp h
    have hnext : ∃ near', contentText.go out near ((l :: letters).map Letter.glyph ++ rest) =
        contentText.go (l.char :: out) near' (letters.map Letter.glyph ++ rest) ∧
          Guarded (l.char :: out) near' := by
      rw [List.map_cons, List.cons_append]
      rcases l.glyph_cases hl with ⟨hglyph, hfeed, hreturn⟩ | hglyph
      · rw [hglyph]
        refine ⟨false, ?_, ?_⟩
        · cases near with
          | true => rfl
          | false =>
            have hpush : pushLiteral l.char (letters.map Letter.glyph ++ rest).isEmpty out =
                l.char :: out := by
              rw [pushLiteral.eq_def]
              split
              · exact absurd (hguarded rfl) (by decide)
              · simp [hreturn]
            rw [contentText.go, hpush]
        · intro hhead
          exact absurd (Option.some.inj hhead) hreturn
      · rw [hglyph]
        exact ⟨true, rfl, fun _ => rfl⟩
    obtain ⟨near', hgo, hguarded'⟩ := hnext
    obtain ⟨near'', hgo'⟩ := ih hrest hguarded'
    refine ⟨near'', ?_⟩
    rw [hgo, hgo']
    simp [lettersText]

/-- The first letter behind blanks may change the last of them. -/
theorem contentText_go_first {l : Letter} (h : l.Exact) {blanks : List Char}
    (hblanks : Blank blanks) (near : Bool) (rest : List Glyph) :
    ∃ blanks' near', Blank blanks' ∧ Guarded (l.char :: blanks') near' ∧
      contentText.go blanks near (l.glyph :: rest) =
        contentText.go (l.char :: blanks') near' rest := by
  rcases l.glyph_cases h with ⟨hglyph, hfeed, hreturn⟩ | hglyph
  · have hguarded : ∀ blanks', Guarded (l.char :: blanks') false := by
      intro blanks' hhead
      exact absurd (Option.some.inj hhead) hreturn
    rw [hglyph]
    cases near with
    | true => exact ⟨blanks, false, hblanks, hguarded _, rfl⟩
    | false =>
      rw [contentText.go, pushLiteral.eq_def]
      split
      · next before =>
        have htail := (blank_cons.mp hblanks).2
        refine ⟨'\n' :: before, false, blank_cons.mpr ⟨by decide, htail⟩, hguarded _, ?_⟩
        simp [hfeed, hreturn]
      · refine ⟨blanks, false, hblanks, hguarded _, ?_⟩
        simp [hreturn]
  · rw [hglyph]
    exact ⟨blanks, true, hblanks, fun _ => rfl, rfl⟩

theorem Blank.reverse {text : List Char} (h : Blank text) : Blank text.reverse := by
  intro c hc
  exact h c (List.mem_reverse.mp hc)

/-- Content with white space around a text that neither begins nor ends with
white space. -/
theorem contentText_padded {before behind : List Char} (hbefore : Blank before)
    (hbehind : Blank behind) {letters : List Letter} (h : ∀ l ∈ letters, l.Exact)
    (htrim : Text.trim (lettersText letters) = lettersText letters) :
    ∃ blanks blanks', Blank blanks ∧ Blank blanks' ∧
      contentText (before.map .literal ++ letters.map Letter.glyph ++ behind.map .literal) =
        blanks ++ lettersText letters ++ blanks' := by
  have hnil : Blank [] := by simp [Blank]
  rw [contentText, List.append_assoc]
  -- first the blanks before the text, then the text, then the blanks behind it
  obtain ⟨blanks, near, hblanks, hgo⟩ := contentText_go_blank hbefore hnil
    (by simp : ([] : List Char).head? ≠ some '\r') false
    (letters.map Letter.glyph ++ behind.map .literal)
  rw [List.append_nil, List.append_nil] at hgo
  rw [hgo]
  cases letters with
  | nil =>
    obtain ⟨blanks', near', hblanks', hgo'⟩ := contentText_go_blank hbehind hblanks
      (by simp : ([] : List Char).head? ≠ some '\r') near []
    rw [List.append_nil, List.append_nil, List.append_nil] at hgo'
    refine ⟨[], blanks'.reverse, hnil, hblanks'.reverse, ?_⟩
    rw [List.map_nil, List.nil_append, hgo']
    rfl
  | cons l letters =>
    obtain ⟨hl, hrest⟩ := List.forall_mem_cons.mp h
    obtain ⟨first, near₁, hfirst, hguarded, hgo₁⟩ := contentText_go_first hl hblanks near
      (letters.map Letter.glyph ++ behind.map .literal)
    obtain ⟨near₂, hgo₂⟩ := contentText_go_letters hrest hguarded (behind.map .literal)
    have hout : (lettersText letters).reverse ++ l.char :: first =
        (lettersText (l :: letters)).reverse ++ first := by simp [lettersText]
    have hlast : ((lettersText (l :: letters)).reverse ++ first).head? ≠ some '\r' := by
      intro hhead
      rw [List.head?_append_of_ne_nil _ (by simp [lettersText]), List.head?_reverse] at hhead
      exact absurd (Text.not_isBlank_of_trim htrim hhead) (by decide)
    obtain ⟨last, near₃, hbehind', hgo₃⟩ := contentText_go_blank hbehind hnil hlast near₂ []
    rw [List.append_nil, List.nil_append] at hgo₃
    refine ⟨first.reverse, last.reverse, hfirst.reverse, hbehind'.reverse, ?_⟩
    rw [List.map_cons, List.cons_append, hgo₁, hgo₂, hout, hgo₃, contentText.go]
    simp

/-! ## Stretches -/

/-- White space that may stand around a text. -/
structure Padding (text : List Char) : Prop where
  blank : Blank text
  allowed : text.all isAllowed = true

instance (text : List Char) : Decidable (Padding text) :=
  decidable_of_iff (Blank text ∧ text.all isAllowed = true)
    ⟨fun h => ⟨h.1, h.2⟩, fun h => ⟨h.blank, h.allowed⟩⟩

theorem Padding.harmless {text : List Char} (h : Padding text) : ∀ c ∈ text, Harmless c := by
  intro c hc
  have hne : ∀ d, Text.isBlank d = false → c ≠ d := by
    intro d hd heq
    have hblank := h.blank c hc
    rw [heq, hd] at hblank
    cases hblank
  exact ⟨List.all_eq_true.mp h.allowed c hc, hne _ (by decide), hne _ (by decide),
    hne _ (by decide)⟩

theorem Padding.readAs {text : List Char} (h : Padding text) :
    ReadAs text (text.map .literal) := by
  apply readAs_literals
  intro hmem
  exact absurd (h.blank _ hmem) (by decide)

/-- A stretch of text as it is written, with white space around it. -/
structure Stretch where
  before : List Char := []
  letters : List Letter := []
  behind : List Char := []

namespace Stretch

def markup (s : Stretch) : List Char := s.before ++ lettersMarkup s.letters ++ s.behind

def glyphs (s : Stretch) : List Glyph :=
  s.before.map .literal ++ s.letters.map Letter.glyph ++ s.behind.map .literal

/-- Letters say what they stand for, and what is around them is white space. -/
structure Exact (s : Stretch) : Prop where
  before : Padding s.before
  letters : ∀ l ∈ s.letters, l.Exact
  behind : Padding s.behind

instance (s : Stretch) : Decidable s.Exact :=
  decidable_of_iff (Padding s.before ∧ (∀ l ∈ s.letters, l.Exact) ∧ Padding s.behind)
    ⟨fun h => ⟨h.1, h.2.1, h.2.2⟩, fun h => ⟨h.before, h.letters, h.behind⟩⟩

theorem Exact.harmless {s : Stretch} (h : s.Exact) : ∀ c ∈ s.markup, Harmless c := by
  intro c hc
  rcases List.mem_append.mp hc with hc | hc
  · rcases List.mem_append.mp hc with hc | hc
    · exact h.before.harmless c hc
    · exact harmless_letters h.letters c hc
  · exact h.behind.harmless c hc

theorem Exact.glyphs? {s : Stretch} (h : s.Exact) : Markup.glyphs? s.markup = some s.glyphs :=
  ((h.before.readAs.append (readAs_letters h.letters)).append h.behind.readAs).glyphs?

theorem Exact.trim_contentText {s : Stretch} (h : s.Exact)
    (htrim : Text.trim (lettersText s.letters) = lettersText s.letters) :
    Text.trim (contentText s.glyphs) = lettersText s.letters := by
  obtain ⟨blanks, blanks', hblanks, hblanks', hcontent⟩ :=
    contentText_padded h.before.blank h.behind.blank h.letters htrim
  rw [glyphs, hcontent, Text.trim_append_right hblanks', Text.trim_append_left hblanks, htrim]

end Stretch

end Markup

end Phrasebook
