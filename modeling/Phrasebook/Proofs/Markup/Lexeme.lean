import Mathlib
import Phrasebook.Markup.Lexeme

/-
  Documents read piece by piece.

  A tag, a comment or a stretch of text is read alike wherever it stands, as
  long as the next piece begins with `<`: no lexeme goes past that.

  What is proved:
    1. `until?_eq_some` — what ends in a word ends where the word first stands.
    2. `lexed_append` — a text that is read by itself is read the same in front
       of a `<`.
    3. `lexed_start`, `lexed_close`, `lexed_text`, `lexed_comment` — how the
       pieces are read that a document is written with.
-/

namespace Phrasebook.Markup

/-- Reading from `text` the lexemes of `row` are found, and `rest` is left. -/
def Lexed (text : List Char) (row : List Lexeme) (rest : List Char) : Prop :=
  ∀ found, lexemes?.go text found = lexemes?.go rest (row.reverse ++ found)

theorem Lexed.refl (text : List Char) : Lexed text [] text := fun _ => rfl

theorem Lexed.trans {text text' rest : List Char} {row row' : List Lexeme}
    (h : Lexed text row text') (h' : Lexed text' row' rest) : Lexed text (row ++ row') rest := by
  intro found
  rw [h, h', List.reverse_append, List.append_assoc]

theorem lexed_of_read? {c : Char} {text rest : List Char} {l : Lexeme}
    (h : Lexeme.read? c text = some (l, rest)) : Lexed (c :: text) [l] rest := by
  intro found
  rw [lexemes?.go]
  split
  · next l' rest' h' =>
    rw [h] at h'
    cases h'
    rfl
  · next h' =>
    rw [h] at h'
    cases h'

theorem lexemes?_of_lexed {text : List Char} {row : List Lexeme} (h : Lexed text row []) :
    lexemes? text = some row := by
  rw [lexemes?, h, lexemes?.go, List.append_nil, List.reverse_reverse]

/-! ## Which lexeme -/

namespace Lexeme

variable (text : List Char)

theorem read?_verbatim {text : List Char} (h : ∀ rest, text ≠ '-' :: '-' :: rest) :
    read? '<' ('!' :: text) = verbatim? text := by
  rw [read?.eq_def]
  simp only [beq_self_eq_true, ↓reduceIte]

theorem read?_start {c : Char} (hbang : c ≠ '!') (hask : c ≠ '?') (hslash : c ≠ '/') :
    read? '<' (c :: text) = start? (c :: text) := by
  rw [read?.eq_def]
  simp only [beq_self_eq_true, ↓reduceIte]
  split
  · next heq => exact absurd (List.cons.inj heq).1 hbang
  · next heq => exact absurd (List.cons.inj heq).1 hbang
  · next heq => exact absurd (List.cons.inj heq).1 hask
  · next heq => exact absurd (List.cons.inj heq).1 hslash
  · rfl

theorem read?_text {c : Char} (h : c ≠ '<') :
    read? c text =
      if (c :: text.takeWhile (· != '<')).all isAllowed &&
          !holds "]]>".toList (c :: text.takeWhile (· != '<')) then
        some (.text (c :: text.takeWhile (· != '<')), text.dropWhile (· != '<'))
      else none := by
  rw [read?.eq_def, if_neg (by simp [h])]

end Lexeme

/-! ## Names -/

def inName (c : Char) : Bool := isNameChar c || c == ':'

theorem QName.read?_eq (text : List Char) :
    QName.read? text =
      (QName.ofChars? (text.takeWhile inName)).map fun name => (name, text.dropWhile inName) :=
  rfl

theorem instruction?_eq (text : List Char) :
    instruction? text =
      if "xml ".toList.isPrefixOf text then none
      else if startsName (text.takeWhile inName) || (text.takeWhile inName).head? == some ':' then
        match allowedUntil? "?>".toList (skipSpace (text.dropWhile inName)) with
        | none => none
        | some (data, rest) => some (.instruction (text.takeWhile inName) data, rest)
      else none :=
  rfl

/-! ## The first end -/

theorem isPrefixOf_append_stop {part : List Char} {stop : Char} (hstop : stop ∉ part)
    (text rest : List Char) :
    part.isPrefixOf (text ++ stop :: rest) = part.isPrefixOf text := by
  induction part generalizing text with
  | nil => simp
  | cons c part ih =>
    rw [List.mem_cons, not_or] at hstop
    cases text with
    | nil => simp [List.isPrefixOf, Ne.symm hstop.1]
    | cons d text => simp [List.isPrefixOf, ih hstop.2]

theorem holds_iff (part text : List Char) : holds part text = true ↔ part <:+: text := by
  induction text with
  | nil => simp [holds]
  | cons c text ih =>
    rw [holds, Bool.or_eq_true, List.isPrefixOf_iff_prefix, ih, List.infix_cons_iff]

/-- Behind the first member an end would be found earlier. -/
theorem infix_dropLast {stop run behind rest : List Char} (hrun : run ≠ [])
    (h : stop ++ behind = run ++ stop ++ rest) : stop <:+: (run ++ stop).dropLast := by
  have hlength : 0 < run.length := List.length_pos_iff.mpr hrun
  have hhead : (run ++ stop).dropLast <+: run ++ stop ++ rest :=
    (List.dropLast_prefix _).trans (List.prefix_append _ _)
  apply List.IsPrefix.isInfix
  apply List.prefix_of_prefix_length_le ⟨behind, h⟩ hhead
  rw [List.length_dropLast, List.length_append]
  omega

theorem infix_dropLast_cons {stop : List Char} (hstop : stop ≠ []) (c : Char) (run : List Char) :
    stop <:+: (c :: run ++ stop).dropLast ↔
      stop <+: c :: (run ++ stop).dropLast ∨ stop <:+: (run ++ stop).dropLast := by
  rw [List.cons_append, List.dropLast_cons_of_ne_nil (by simp [hstop]), List.infix_cons_iff]

theorem until?_go_eq_some {stop : List Char} (hstop : stop ≠ [])
    {text acc before rest : List Char} :
    until?.go stop text acc = some (before, rest) ↔
      ∃ run, before = acc.reverse ++ run ∧ text = run ++ stop ++ rest ∧
        ¬ stop <:+: (run ++ stop).dropLast := by
  induction text generalizing acc with
  | nil =>
    rw [until?.go, if_neg (by simp [hstop])]
    simp [hstop]
  | cons c text ih =>
    rw [until?.go]
    split
    · next hhead =>
      obtain ⟨behind, hbehind⟩ := List.isPrefixOf_iff_prefix.mp hhead
      rw [← hbehind, List.drop_left]
      constructor
      · intro h
        cases h
        have hself : ¬ stop <:+: stop.dropLast := by
          intro hwithin
          have hle := hwithin.length_le
          have hlength := List.length_pos_iff.mpr hstop
          rw [List.length_dropLast] at hle
          omega
        exact ⟨[], by simp, by simp, hself⟩
      · rintro ⟨run, hbefore, htext, hfirst⟩
        cases run with
        | nil => rw [hbefore, List.append_nil, List.append_cancel_left htext]
        | cons d run => exact absurd (infix_dropLast (by simp) htext) hfirst
    · next hhead =>
      rw [List.isPrefixOf_iff_prefix] at hhead
      rw [ih]
      constructor
      · rintro ⟨run, hbefore, htext, hfirst⟩
        refine ⟨c :: run, by simp [hbefore], by simp [htext], ?_⟩
        rw [infix_dropLast_cons hstop, not_or]
        refine ⟨?_, hfirst⟩
        intro hstart
        apply hhead
        rw [htext]
        exact hstart.trans ((List.prefix_cons_inj c).mpr
          ((List.dropLast_prefix _).trans (List.prefix_append _ _)))
      · rintro ⟨run, hbefore, htext, hfirst⟩
        cases run with
        | nil => exact absurd ⟨rest, htext.symm⟩ hhead
        | cons d run =>
          obtain ⟨rfl, htail⟩ := List.cons.inj htext
          rw [infix_dropLast_cons hstop, not_or] at hfirst
          exact ⟨run, by simp [hbefore], htail, hfirst.2⟩

theorem until?_eq_some {stop : List Char} (hstop : stop ≠ []) {text before rest : List Char} :
    until? stop text = some (before, rest) ↔
      text = before ++ stop ++ rest ∧ ¬ stop <:+: (before ++ stop).dropLast := by
  rw [until?, until?_go_eq_some hstop]
  simp

theorem allowedUntil?_eq_some {stop : List Char} (hstop : stop ≠ [])
    {text before rest : List Char} :
    allowedUntil? stop text = some (before, rest) ↔
      text = before ++ stop ++ rest ∧ ¬ stop <:+: (before ++ stop).dropLast ∧
        before.all isAllowed = true := by
  rw [allowedUntil?, Option.filter_eq_some_iff, until?_eq_some hstop, and_assoc]

/-! ## Attributes -/

section
variable {text rest : List Char} (found : List (QName × List Char))

theorem attributes_closed (h : skipSpace text = '/' :: '>' :: rest) :
    attributes?.go text found = some ((found.reverse, true), rest) := by
  rw [attributes?.go.eq_def, h]
  rfl

theorem attributes_end (h : skipSpace text = '>' :: rest) :
    attributes?.go text found = some ((found.reverse, false), rest) := by
  rw [attributes?.go.eq_def, h]
  rfl

theorem attributes_next {a : QName × List Char} (hlt : (skipSpace text).length < text.length)
    (ha : attribute? (skipSpace text) = some (a, rest)) :
    attributes?.go text found = attributes?.go rest (a :: found) := by
  rw [attributes?.go.eq_def]
  split
  · next hs =>
    rw [hs] at ha
    cases ha
  · next hs =>
    rw [hs] at ha
    cases ha
  · rw [if_pos hlt]
    split
    · next a' rest' ha' =>
      rw [ha] at ha'
      cases ha'
      rfl
    · next ha' =>
      rw [ha] at ha'
      cases ha'

end

/-! ## What stands behind -/

section
variable {text after : List Char} (rest : List Char)

theorem skipSpace_append (text : List Char) :
    skipSpace (text ++ '<' :: rest) = skipSpace text ++ '<' :: rest :=
  Text.dropWhile_append_stop (by decide) text rest

theorem QName.read?_append {name : QName} (h : QName.read? text = some (name, after)) :
    QName.read? (text ++ '<' :: rest) = some (name, after ++ '<' :: rest) := by
  have hstop : inName '<' = false := by decide
  rw [QName.read?_eq] at h ⊢
  obtain ⟨name', hname, heq⟩ := Option.map_eq_some_iff.mp h
  cases heq
  rw [Text.takeWhile_append_stop hstop, Text.dropWhile_append_stop hstop, hname]
  rfl

theorem quoted?_append {value : List Char} (h : quoted? text = some (value, after)) :
    quoted? (text ++ rest) = some (value, after ++ rest) := by
  cases text with
  | nil => simp [quoted?] at h
  | cons quote text =>
    rw [quoted?] at h
    rw [List.cons_append, quoted?]
    split at h
    · next hquote =>
      split at h
      · simp at h
      · next stop after' hstop =>
        obtain ⟨htake, hdrop⟩ := Text.run_append hstop rest
        simp only [Option.ite_none_right_eq_some, Option.some.injEq, Prod.mk.injEq] at h
        obtain ⟨hvalue, rfl, rfl⟩ := h
        simp only [if_pos hquote, htake, hdrop, List.cons_append, if_pos hvalue]
    · simp at h

theorem attribute?_append {a : QName × List Char} (h : attribute? text = some (a, after)) :
    attribute? (text ++ '<' :: rest) = some (a, after ++ '<' :: rest) := by
  rw [attribute?] at h ⊢
  split at h
  · simp at h
  · next name behind hname =>
    rw [QName.read?_append rest hname]
    simp only [skipSpace_append]
    split at h
    · next found hfound =>
      rw [hfound]
      simp only [List.cons_append, skipSpace_append]
      split at h
      · simp at h
      · next value last hvalue =>
        cases h
        rw [quoted?_append _ hvalue]
    · simp at h

theorem attributes?_append {found : List (QName × List Char) × Bool}
    (h : attributes? text = some (found, after)) :
    attributes? (text ++ '<' :: rest) = some (found, after ++ '<' :: rest) := by
  have key : ∀ (text : List Char) (acc : List (QName × List Char)),
      attributes?.go text acc = some (found, after) →
        attributes?.go (text ++ '<' :: rest) acc = some (found, after ++ '<' :: rest) := by
    intro text acc
    fun_induction attributes?.go text acc with
    | case1 text acc behind hs =>
      intro h
      cases h
      exact attributes_closed acc (by rw [skipSpace_append, hs]; rfl)
    | case2 text acc behind hs =>
      intro h
      cases h
      exact attributes_end acc (by rw [skipSpace_append, hs]; rfl)
    | case3 text acc a behind _ _ hlt ha _ ih =>
      intro h
      rw [attributes_next acc]
      · exact ih h
      · rw [skipSpace_append, List.length_append, List.length_append]
        exact Nat.add_lt_add_right hlt _
      · rw [skipSpace_append]
        exact attribute?_append rest ha
    | case4 => simp
    | case5 => simp
  exact key text [] h

theorem allowedUntil?_append {stop before : List Char} (hstop : stop ≠ [])
    (h : allowedUntil? stop text = some (before, after)) :
    allowedUntil? stop (text ++ rest) = some (before, after ++ rest) := by
  rw [allowedUntil?_eq_some hstop] at h ⊢
  obtain ⟨htext, hfirst, hallowed⟩ := h
  exact ⟨by rw [htext, List.append_assoc], hfirst, hallowed⟩

theorem comment?_append {l : Lexeme} (h : comment? text = some (l, after)) :
    comment? (text ++ rest) = some (l, after ++ rest) := by
  rw [comment?] at h ⊢
  split at h
  · simp at h
  · next body behind hbody =>
    rw [allowedUntil?_append rest (by decide) hbody]
    simp only [Option.ite_none_left_eq_some, Option.some.injEq, Prod.mk.injEq] at h ⊢
    obtain ⟨hclean, rfl, rfl⟩ := h
    exact ⟨hclean, rfl, rfl⟩

theorem verbatim?_append {l : Lexeme} (h : verbatim? text = some (l, after)) :
    verbatim? (text ++ '<' :: rest) = some (l, after ++ '<' :: rest) := by
  simp only [verbatim?] at h ⊢
  split at h
  · next hopening =>
    rw [isPrefixOf_append_stop (by decide), if_pos hopening]
    obtain ⟨behind, rfl⟩ := List.isPrefixOf_iff_prefix.mp hopening
    rw [List.drop_left] at h
    rw [List.append_assoc, List.drop_left]
    split at h
    · simp at h
    · next body last hbody =>
      rw [allowedUntil?_append _ (by decide) hbody]
      cases h
      rfl
  · simp at h

theorem opening_of_verbatim? {l : Lexeme} (h : verbatim? text = some (l, after)) :
    ∃ behind, text = "[CDATA[".toList ++ behind := by
  simp only [verbatim?] at h
  split at h
  · next hopening =>
    obtain ⟨behind, heq⟩ := List.isPrefixOf_iff_prefix.mp hopening
    exact ⟨behind, heq.symm⟩
  · simp at h

theorem instruction?_append {l : Lexeme} (h : instruction? text = some (l, after)) :
    instruction? (text ++ '<' :: rest) = some (l, after ++ '<' :: rest) := by
  have hstop : inName '<' = false := by decide
  rw [instruction?_eq] at h ⊢
  rw [isPrefixOf_append_stop (by decide), Text.takeWhile_append_stop hstop,
    Text.dropWhile_append_stop hstop, skipSpace_append]
  split at h
  · simp at h
  · next hdeclaration =>
    rw [if_neg hdeclaration]
    split at h
    · next htarget =>
      rw [if_pos htarget]
      split at h
      · simp at h
      · next data last hdata =>
        rw [allowedUntil?_append _ (by decide) hdata]
        cases h
        rfl
    · simp at h

theorem close?_append {l : Lexeme} (h : close? text = some (l, after)) :
    close? (text ++ '<' :: rest) = some (l, after ++ '<' :: rest) := by
  rw [close?] at h ⊢
  split at h
  · simp at h
  · next name behind hname =>
    rw [QName.read?_append rest hname]
    simp only [skipSpace_append]
    split at h
    · next last hlast =>
      cases h
      rw [hlast]
      rfl
    · simp at h

theorem start?_append {l : Lexeme} (h : start? text = some (l, after)) :
    start? (text ++ '<' :: rest) = some (l, after ++ '<' :: rest) := by
  rw [start?] at h ⊢
  split at h
  · simp at h
  · next name behind hname =>
    rw [QName.read?_append rest hname]
    split at h
    · simp at h
    · next found closed last hfound =>
      cases h
      simp only [attributes?_append rest hfound]

theorem Lexeme.read?_append {c : Char} {l : Lexeme} (h : Lexeme.read? c text = some (l, after)) :
    Lexeme.read? c (text ++ '<' :: rest) = some (l, after ++ '<' :: rest) := by
  by_cases hc : c = '<'
  · subst hc
    rw [Lexeme.read?.eq_def] at h
    simp only [beq_self_eq_true, ↓reduceIte] at h
    split at h
    · exact comment?_append _ h
    · next behind hcomment =>
      have hopening := opening_of_verbatim? h
      rw [List.cons_append, read?_verbatim]
      · exact verbatim?_append rest h
      · obtain ⟨last, rfl⟩ := hopening
        simp
    · exact instruction?_append rest h
    · exact close?_append rest h
    · next hcomment hverbatim hinstruction hclose =>
      cases text with
      | nil => simp [start?, QName.read?, QName.ofChars?, startsName] at h
      | cons d text =>
        rw [List.cons_append, read?_start]
        · exact start?_append rest h
        · intro heq
          exact hverbatim text (heq ▸ rfl)
        · intro heq
          exact hinstruction text (heq ▸ rfl)
        · intro heq
          exact hclose text (heq ▸ rfl)
  · rw [read?_text _ hc] at h ⊢
    rw [Text.takeWhile_append_stop (by rfl), Text.dropWhile_append_stop (by rfl)]
    simp only [Option.ite_none_right_eq_some, Option.some.injEq, Prod.mk.injEq] at h ⊢
    obtain ⟨hallowed, rfl, rfl⟩ := h
    exact ⟨hallowed, rfl, rfl⟩

/-- A text that is read by itself is read the same where a `<` stands behind. -/
theorem lexed_append {row : List Lexeme} (h : lexemes? text = some row) :
    Lexed (text ++ '<' :: rest) row ('<' :: rest) := by
  have key : ∀ (text : List Char) (found : List Lexeme), lexemes?.go text found = some row →
      ∃ more, row = found.reverse ++ more ∧ Lexed (text ++ '<' :: rest) more ('<' :: rest) := by
    intro text found
    fun_induction lexemes?.go text found with
    | case1 found =>
      intro h
      cases h
      exact ⟨[], by simp, Lexed.refl _⟩
    | case2 found c text l behind hl _ ih =>
      intro h
      obtain ⟨more, hrow, hmore⟩ := ih h
      exact ⟨l :: more, by simp [hrow], (lexed_of_read? (Lexeme.read?_append rest hl)).trans hmore⟩
    | case3 => simp
  obtain ⟨more, hrow, hmore⟩ := key text [] h
  rw [hrow]
  exact hmore

end

/-! ## Pieces of a document -/

structure IsName (name : List Char) : Prop where
  starts : startsName name = true
  holds : name.all isNameChar = true

instance (name : List Char) : Decidable (IsName name) :=
  decidable_of_iff (startsName name = true ∧ name.all isNameChar = true)
    ⟨fun h => ⟨h.1, h.2⟩, fun h => ⟨h.starts, h.holds⟩⟩

theorem exists_of_startsName {text : List Char} (h : startsName text = true) :
    ∃ c tail, text = c :: tail ∧ isNameStart c = true := by
  cases text with
  | nil => exact absurd h (by decide)
  | cons c tail => exact ⟨c, tail, rfl, h⟩

theorem IsName.read? {name : List Char} (h : IsName name) {stop : Char}
    (hstop : inName stop = false) (rest : List Char) :
    QName.read? (name ++ stop :: rest) = some (⟨[], name⟩, stop :: rest) := by
  have hholds := List.all_eq_true.mp h.holds
  have hname : ∀ c ∈ name, inName c = true := by
    intro c hc
    rw [inName, hholds c hc, Bool.true_or]
  have hcolon : name.dropWhile (· != ':') = [] := by
    rw [List.dropWhile_eq_nil_iff]
    intro c hc
    rw [bne_iff_ne]
    intro heq
    have hchar := hholds c hc
    rw [heq] at hchar
    exact absurd hchar (by decide)
  rw [QName.read?_eq, Text.takeWhile_run rest hname hstop, Text.dropWhile_run rest hname hstop,
    QName.ofChars?, hcolon, if_pos h.starts]
  rfl

section
variable (rest : List Char)

/-- A tag that starts as a name does opens an element. -/
theorem lexed_of_start? {text : List Char} (hstarts : startsName text = true) {l : Lexeme}
    (h : start? text = some (l, rest)) : Lexed ('<' :: text) [l] rest := by
  obtain ⟨c, tail, rfl, hc⟩ := exists_of_startsName hstarts
  have hne : ∀ d, isNameStart d = false → c ≠ d := by
    intro d hd heq
    rw [heq, hd] at hc
    cases hc
  apply lexed_of_read?
  rw [Lexeme.read?_start _ (hne _ (by decide)) (hne _ (by decide)) (hne _ (by decide)), h]

theorem startsName_append {text : List Char} (h : startsName text = true) :
    startsName (text ++ rest) = true := by
  obtain ⟨c, tail, rfl, hc⟩ := exists_of_startsName h
  exact hc

theorem skipSpace_name {name : List Char} (h : IsName name) :
    skipSpace (' ' :: (name ++ rest)) = name ++ rest := by
  obtain ⟨c, tail, rfl, hc⟩ := exists_of_startsName h.starts
  have hspace : isSpace c = false := by
    rw [Bool.eq_false_iff]
    intro hspace
    simp only [isSpace, Bool.or_eq_true, beq_iff_eq] at hspace
    rcases hspace with ((rfl | rfl) | rfl) | rfl <;> exact absurd hc (by decide)
  have hblank : isSpace ' ' = true := rfl
  simp [skipSpace, hblank, hspace]

/-- An attribute as it is written, behind a space and in double quotes. -/
def attributeMarkup (a : List Char × List Char) : List Char :=
  ' ' :: (a.1 ++ '=' :: '"' :: (a.2 ++ ['"']))

/-- A name, and markup that can stand in double quotes. -/
structure Quotable (a : List Char × List Char) : Prop where
  name : IsName a.1
  allowed : a.2.all isAllowed = true
  less : '<' ∉ a.2
  quote : '"' ∉ a.2

theorem attribute?_written {a : List Char × List Char} (h : Quotable a) :
    attribute? (a.1 ++ '=' :: '"' :: (a.2 ++ '"' :: rest)) = some ((⟨[], a.1⟩, a.2), rest) := by
  have hvalue : quoted? ('"' :: (a.2 ++ '"' :: rest)) = some (a.2, rest) := by
    rw [quoted?, if_pos (by decide), Text.dropWhile_ne _ h.quote, Text.takeWhile_ne _ h.quote]
    simp [h.allowed, h.less]
  have hequals : skipSpace ('=' :: '"' :: (a.2 ++ '"' :: rest)) =
      '=' :: '"' :: (a.2 ++ '"' :: rest) := rfl
  have hquoted : skipSpace ('"' :: (a.2 ++ '"' :: rest)) = '"' :: (a.2 ++ '"' :: rest) := rfl
  rw [attribute?, h.name.read? (by decide)]
  simp only [hequals, hquoted, hvalue]

theorem attributes_written {given : List (List Char × List Char)} (h : ∀ a ∈ given, Quotable a)
    (found : List (QName × List Char)) :
    attributes?.go (given.flatMap attributeMarkup ++ '>' :: rest) found =
      some ((found.reverse ++ given.map fun a => (⟨[], a.1⟩, a.2), false), rest) := by
  induction given generalizing found with
  | nil =>
    have hend : skipSpace ('>' :: rest) = '>' :: rest := rfl
    rw [List.flatMap_nil, List.nil_append, attributes_end found hend, List.map_nil,
      List.append_nil]
  | cons a given ih =>
    obtain ⟨ha, hgiven⟩ := List.forall_mem_cons.mp h
    have hmarkup : (a :: given).flatMap attributeMarkup ++ '>' :: rest =
        ' ' :: (a.1 ++ '=' :: '"' :: (a.2 ++ '"' ::
          (given.flatMap attributeMarkup ++ '>' :: rest))) := by
      simp [attributeMarkup]
    have hspace := skipSpace_name
      ('=' :: '"' :: (a.2 ++ '"' :: (given.flatMap attributeMarkup ++ '>' :: rest))) ha.name
    rw [hmarkup, attributes_next found (by rw [hspace]; exact Nat.lt_succ_self _)
      (by rw [hspace]; exact attribute?_written _ ha), ih hgiven]
    simp

def startMarkup (name : List Char) (given : List (List Char × List Char)) : List Char :=
  '<' :: (name ++ (given.flatMap attributeMarkup ++ ['>']))

def closeMarkup (name : List Char) : List Char := '<' :: '/' :: (name ++ ['>'])

theorem lexed_start {name : List Char} (h : IsName name) {given : List (List Char × List Char)}
    (hgiven : ∀ a ∈ given, Quotable a) :
    Lexed (startMarkup name given ++ rest)
      [.start ⟨[], name⟩ (given.map fun a => (⟨[], a.1⟩, a.2)) false] rest := by
  have hattributes := attributes_written rest hgiven []
  have hname : QName.read? (name ++ (given.flatMap attributeMarkup ++ '>' :: rest)) =
      some (⟨[], name⟩, given.flatMap attributeMarkup ++ '>' :: rest) := by
    cases given with
    | nil => exact h.read? (by decide) rest
    | cons a given => exact h.read? (by decide) _
  have hmarkup : startMarkup name given ++ rest =
      '<' :: (name ++ (given.flatMap attributeMarkup ++ '>' :: rest)) := by
    simp [startMarkup]
  rw [hmarkup]
  apply lexed_of_start? rest (startsName_append _ h.starts)
  rw [start?, hname]
  simp only [attributes?, hattributes, List.reverse_nil, List.nil_append]

theorem lexed_close {name : List Char} (h : IsName name) :
    Lexed (closeMarkup name ++ rest) [.close ⟨[], name⟩] rest := by
  have hmarkup : closeMarkup name ++ rest = '<' :: '/' :: (name ++ '>' :: rest) := by
    simp [closeMarkup]
  have hread : Lexeme.read? '<' ('/' :: (name ++ '>' :: rest)) = close? (name ++ '>' :: rest) := rfl
  rw [hmarkup]
  apply lexed_of_read?
  rw [hread, close?, h.read? (by decide)]
  rfl

end

def textRow (markup : List Char) : List Lexeme :=
  if markup = [] then [] else [.text markup]

theorem lexed_text {markup : List Char} (hallowed : markup.all isAllowed = true)
    (hless : '<' ∉ markup) (hgreater : '>' ∉ markup) (rest : List Char) :
    Lexed (markup ++ '<' :: rest) (textRow markup) ('<' :: rest) := by
  cases markup with
  | nil => exact Lexed.refl _
  | cons c markup =>
    rw [List.mem_cons, not_or] at hless
    have hend : holds "]]>".toList (c :: markup) = false := by
      rw [Bool.eq_false_iff, ne_eq, holds_iff]
      intro hwithin
      exact hgreater (hwithin.subset (by decide))
    rw [List.cons_append]
    apply lexed_of_read?
    rw [Lexeme.read?_text _ (Ne.symm hless.1), Text.takeWhile_ne rest hless.2,
      Text.dropWhile_ne rest hless.2, hallowed, hend]
    rfl

def commentMarkup (body : List Char) : List Char := "<!--".toList ++ body ++ "-->".toList

structure IsComment (body : List Char) : Prop where
  allowed : body.all isAllowed = true
  dashes : ¬ "--".toList <:+: body
  dash : body.getLast? ≠ some '-'

instance (body : List Char) : Decidable (IsComment body) :=
  decidable_of_iff (body.all isAllowed = true ∧ ¬ "--".toList <:+: body ∧ body.getLast? ≠ some '-')
    ⟨fun h => ⟨h.1, h.2.1, h.2.2⟩, fun h => ⟨h.allowed, h.dashes, h.dash⟩⟩

theorem lexed_comment {body : List Char} (h : IsComment body) (rest : List Char) :
    Lexed (commentMarkup body ++ rest) [.comment body] rest := by
  have hfirst : ¬ "-->".toList <:+: (body ++ "-->".toList).dropLast := by
    have hlast : (body ++ "-->".toList).dropLast = body ++ ['-'] ++ ['-'] := by
      simp
    have hend : ∀ l, ¬ "-->".toList <:+ l ++ ['-'] := by
      rintro l ⟨t, ht⟩
      have hchar := congrArg List.getLast? ht
      simp at hchar
    rw [hlast, List.infix_concat_iff, List.infix_concat_iff]
    intro hwithin
    rcases hwithin with hwithin | hwithin | hwithin
    · exact hend _ hwithin
    · exact hend _ hwithin
    · exact h.dashes (List.IsInfix.trans ⟨[], ['>'], rfl⟩ hwithin)
  have hbody : allowedUntil? "-->".toList (body ++ "-->".toList ++ rest) = some (body, rest) := by
    rw [allowedUntil?_eq_some (by decide)]
    exact ⟨rfl, hfirst, h.allowed⟩
  have hclean : (holds "--".toList body || body.getLast? == some '-') = false := by
    rw [Bool.or_eq_false_iff, Bool.eq_false_iff, ne_eq, holds_iff, beq_eq_false_iff_ne]
    exact ⟨h.dashes, h.dash⟩
  have hmarkup : commentMarkup body ++ rest =
      '<' :: '!' :: '-' :: '-' :: (body ++ "-->".toList ++ rest) := by
    unfold commentMarkup
    rw [List.append_assoc, List.append_assoc, List.append_assoc]
    rfl
  have hread : Lexeme.read? '<' ('!' :: '-' :: '-' :: (body ++ "-->".toList ++ rest)) =
      comment? (body ++ "-->".toList ++ rest) := rfl
  rw [hmarkup]
  apply lexed_of_read?
  rw [hread, comment?, hbody]
  simp only [hclean]
  rfl

end Phrasebook.Markup
