import Mathlib
import Phrasebook.Placeholder

/-
  Where the placeholders of a text are, and what becomes of it.

  A placeholder opens with `${` and may turn out to be none, and what looks like
  one may stand inside the default of another. So the places are fixed by the
  text as a whole: a cut names the placeholders that are replaced and the text
  between them, and in that text no placeholder starts, not even one that
  reaches beyond it.

  What is proved:
    1. `read?_eq_some_iff` — the reader finds the placeholder that stands at the
       start of a text; there is at most one (`chars_append_inj`).
    2. `Cut.eq_of_cuts` — a text has one cut at most.
    3. `exists_cut` — it has one, and to replace is to fill its gaps.
    4. `replaceAll_fills` — both in one.
-/

namespace Phrasebook.Placeholder

/-! ## One placeholder -/

def body (p : Placeholder) : List Char :=
  match p.fallback with
  | none => p.name ++ ['}']
  | some d => p.name ++ ':' :: d ++ ['}']

theorem chars_eq_body (p : Placeholder) : p.chars = '$' :: '{' :: p.body := by
  rw [chars, body]
  cases p.fallback with
  | none => rfl
  | some d => rfl

theorem read?_body {p : Placeholder} (hp : p.Proper) (after : List Char) :
    read? (p.body ++ after) = some (p, after) := by
  obtain ⟨name, fallback⟩ := p
  obtain ⟨hne, hname, hfallback⟩ := hp
  cases fallback with
  | none =>
    have hend : isNameChar '}' = false := by decide
    simp only [body, List.append_assoc, List.cons_append, List.nil_append, read?,
      Text.takeWhile_run after hname hend, Text.dropWhile_run after hname hend, if_neg hne]
  | some d =>
    have hcolon : isNameChar ':' = false := by decide
    have hd : '}' ∉ d := hfallback d rfl
    simp only [body, List.append_assoc, List.cons_append, List.nil_append, read?,
      Text.takeWhile_run _ hname hcolon, Text.dropWhile_run _ hname hcolon, if_neg hne,
      Text.takeWhile_ne after hd, Text.dropWhile_ne after hd]

theorem body_of_read? {p : Placeholder} {text after : List Char}
    (h : read? text = some (p, after)) : p.Proper ∧ text = p.body ++ after := by
  have htext : text.takeWhile isNameChar ++ text.dropWhile isNameChar = text :=
    List.takeWhile_append_dropWhile
  have hname : ∀ c ∈ text.takeWhile isNameChar, isNameChar c = true := by
    intro c hc
    exact List.mem_takeWhile_imp hc
  simp only [read?] at h
  split at h
  · simp at h
  · next hne =>
    split at h
    · next hrest =>
      cases h
      refine ⟨⟨hne, hname, by simp⟩, ?_⟩
      calc text = text.takeWhile isNameChar ++ text.dropWhile isNameChar := htext.symm
        _ = _ := by rw [hrest]; simp [body]
    · next rest hrest =>
      split at h
      · simp at h
      · next stop after' hstop =>
        cases h
        -- the default ends at the first brace
        have hdefault : rest.takeWhile (· != '}') ++ rest.dropWhile (· != '}') = rest :=
          List.takeWhile_append_dropWhile
        have hbrace : stop = '}' := by
          have := List.head?_dropWhile_not (· != '}') rest
          rw [hstop] at this
          simpa using this
        refine ⟨⟨hne, hname, ?_⟩, ?_⟩
        · intro d hd hmem
          cases hd
          simpa using List.mem_takeWhile_imp hmem
        · rw [hstop, hbrace] at hdefault
          calc text = text.takeWhile isNameChar ++ text.dropWhile isNameChar := htext.symm
            _ = text.takeWhile isNameChar ++
                ':' :: (rest.takeWhile (· != '}') ++ '}' :: after) := by rw [hrest, hdefault]
            _ = _ := by simp [body]
    · simp at h

/-- The reader finds the placeholder that the text starts with, if it starts with
one. -/
theorem read?_eq_some_iff {p : Placeholder} {text after : List Char} :
    read? text = some (p, after) ↔ p.Proper ∧ text = p.body ++ after := by
  constructor
  · exact body_of_read?
  · intro h
    rw [h.2]
    exact read?_body h.1 after

/-- No placeholder is the start of another. -/
theorem chars_append_inj {p q : Placeholder} (hp : p.Proper) (hq : q.Proper)
    {after after' : List Char} (h : p.chars ++ after = q.chars ++ after') :
    p = q ∧ after = after' := by
  simp only [chars_eq_body, List.cons_append, List.cons.injEq, true_and] at h
  have hread := read?_body hp after
  rw [h, read?_body hq after'] at hread
  simp only [Option.some.injEq, Prod.mk.injEq] at hread
  exact ⟨hread.1.symm, hread.2.symm⟩

/-- A placeholder stands at the start of the text. -/
def Starts (text : List Char) : Prop := ∃ p : Placeholder, p.Proper ∧ p.chars <+: text

theorem starts_chars {p : Placeholder} (hp : p.Proper) (after : List Char) :
    Starts (p.chars ++ after) :=
  ⟨p, hp, List.prefix_append _ _⟩

theorem not_starts_of_read? {rest : List Char} (h : read? rest = none) :
    ¬Starts ('$' :: '{' :: rest) := by
  intro hstarts
  obtain ⟨p, hp, after, htext⟩ := hstarts
  simp only [chars_eq_body, List.cons_append, List.cons.injEq, true_and] at htext
  rw [← htext, read?_body hp] at h
  simp at h

theorem not_starts_of_ne {text : List Char} (h : ∀ rest, text ≠ '$' :: '{' :: rest) :
    ¬Starts text := by
  intro hstarts
  obtain ⟨p, -, after, htext⟩ := hstarts
  rw [chars_eq_body] at htext
  exact h _ htext.symm

/-! ## Cuts -/

/-- No placeholder starts within `between`, where `after` follows. -/
def Bare (between after : List Char) : Prop :=
  ∀ part, part <:+ between → part ≠ [] → ¬Starts (part ++ after)

theorem bare_nil (after : List Char) : Bare [] after := by
  intro part hpart hne
  exact absurd (List.suffix_nil.mp hpart) hne

theorem Bare.cons {between after : List Char} {c : Char} (h : Bare between after)
    (hc : ¬Starts (c :: between ++ after)) : Bare (c :: between) after := by
  intro part hpart hne
  cases List.suffix_cons_iff.mp hpart with
  | inl hall =>
    rw [hall]
    exact hc
  | inr hrest => exact h part hrest hne

/-- Where bare text ends and a placeholder starts is fixed by the whole. -/
theorem Bare.append_inj {between between' after after' : List Char} (h : Bare between after)
    (h' : Bare between' after') (hafter : Starts after) (hafter' : Starts after')
    (heq : between ++ after = between' ++ after') : between = between' ∧ after = after' := by
  rcases List.append_eq_append_iff.mp heq with ⟨more, hmore, hrest⟩ | ⟨more, hmore, hrest⟩
  · cases more with
    | nil => simp_all
    | cons c more =>
      rw [hrest] at hafter
      exact absurd hafter (h' _ ⟨between, hmore.symm⟩ (by simp))
  · cases more with
    | nil => simp_all
    | cons c more =>
      rw [hrest] at hafter'
      exact absurd hafter' (h _ ⟨between', hmore.symm⟩ (by simp))

/-- A text in pieces: placeholders, each with the text before it, and the text
behind the last. -/
structure Cut where
  pieces : List (List Char × Placeholder)
  last : List Char

namespace Cut

/-- The text with something in the place of every placeholder. -/
def fill (put : Placeholder → List Char) (c : Cut) : List Char :=
  c.pieces.flatMap (fun piece => piece.1 ++ put piece.2) ++ c.last

def text (c : Cut) : List Char := c.fill chars

theorem fill_cons (put : Placeholder → List Char) (between : List Char) (p : Placeholder)
    (pieces : List (List Char × Placeholder)) (last : List Char) :
    fill put ⟨(between, p) :: pieces, last⟩ = between ++ (put p ++ fill put ⟨pieces, last⟩) := by
  simp [fill]

theorem text_cons (between : List Char) (p : Placeholder)
    (pieces : List (List Char × Placeholder)) (last : List Char) :
    text ⟨(between, p) :: pieces, last⟩ = between ++ (p.chars ++ text ⟨pieces, last⟩) :=
  fill_cons chars between p pieces last

/-- Every placeholder is one, and none starts in the text between them. -/
def Exact : List (List Char × Placeholder) → (last : List Char) → Prop
  | [], last => Bare last []
  | (between, p) :: pieces, last =>
    p.Proper ∧ Bare between (p.chars ++ text ⟨pieces, last⟩) ∧ Exact pieces last

/-- The pieces are a decomposition of `whole`. -/
def Cuts (c : Cut) (whole : List Char) : Prop := c.text = whole ∧ Exact c.pieces c.last

theorem text_ne_of_bare {last between : List Char} (h : Bare last []) {p : Placeholder}
    (hp : p.Proper) (after : List Char) : last ≠ between ++ (p.chars ++ after) := by
  intro heq
  apply h (p.chars ++ after) ⟨between, heq.symm⟩
  · simp [chars_eq_body]
  · rw [List.append_nil]
    exact starts_chars hp after

theorem eq_of_exact {pieces pieces' : List (List Char × Placeholder)} {last last' : List Char}
    (h : Exact pieces last) (h' : Exact pieces' last')
    (htext : text ⟨pieces, last⟩ = text ⟨pieces', last'⟩) : pieces = pieces' ∧ last = last' := by
  induction pieces generalizing pieces' with
  | nil =>
    cases pieces' with
    | nil => exact ⟨rfl, htext⟩
    | cons piece' pieces' =>
      rw [text_cons] at htext
      exact absurd htext (text_ne_of_bare h h'.1 _)
  | cons piece pieces ih =>
    cases pieces' with
    | nil =>
      rw [text_cons] at htext
      exact absurd htext.symm (text_ne_of_bare h' h.1 _)
    | cons piece' pieces' =>
      obtain ⟨between, p⟩ := piece
      obtain ⟨between', p'⟩ := piece'
      obtain ⟨hp, hbare, hrest⟩ := h
      obtain ⟨hp', hbare', hrest'⟩ := h'
      rw [text_cons, text_cons] at htext
      -- first the text before the placeholder, then the placeholder, then the rest
      obtain ⟨rfl, hafter⟩ :=
        hbare.append_inj hbare' (starts_chars hp _) (starts_chars hp' _) htext
      obtain ⟨rfl, htail⟩ := chars_append_inj hp hp' hafter
      obtain ⟨rfl, rfl⟩ := ih hrest hrest' htail
      exact ⟨rfl, rfl⟩

theorem eq_of_cuts {c c' : Cut} {whole : List Char} (h : c.Cuts whole) (h' : c'.Cuts whole) :
    c = c' := by
  obtain ⟨hpieces, hlast⟩ := eq_of_exact h.2 h'.2 (h.1.trans h'.1.symm)
  cases c
  cases c'
  simp_all

/-! ## Filling -/

/-- A cut with one more character at its start. -/
def push (ch : Char) : Cut → Cut
  | ⟨[], last⟩ => ⟨[], ch :: last⟩
  | ⟨(between, p) :: pieces, last⟩ => ⟨(ch :: between, p) :: pieces, last⟩

theorem fill_push (put : Placeholder → List Char) (ch : Char) (c : Cut) :
    (c.push ch).fill put = ch :: c.fill put := by
  obtain ⟨pieces, last⟩ := c
  cases pieces with
  | nil => rfl
  | cons piece pieces => rfl

theorem Cuts.push {c : Cut} {whole : List Char} (h : c.Cuts whole) {ch : Char}
    (hch : ¬Starts (ch :: whole)) : (c.push ch).Cuts (ch :: whole) := by
  obtain ⟨rfl, hexact⟩ := h
  refine ⟨fill_push chars ch c, ?_⟩
  obtain ⟨pieces, last⟩ := c
  cases pieces with
  | nil =>
    apply Bare.cons hexact
    rw [List.append_nil]
    exact hch
  | cons piece pieces =>
    obtain ⟨hp, hbare, hrest⟩ := hexact
    rw [text_cons] at hch
    exact ⟨hp, hbare.cons hch, hrest⟩

end Cut

/-- What takes the place of a placeholder: the value of its name, an empty one as
well, or else the default, or else nothing. -/
def filling (lookup : String → Option String) (p : Placeholder) : List Char :=
  match lookup (String.ofList p.name), p.fallback with
  | some value, _ => value.toList
  | none, some default => default
  | none, none => []

theorem toList_value (lookup : String → Option String) (p : Placeholder) :
    (p.value lookup).toList = p.filling lookup := by
  rw [value, filling]
  cases lookup (String.ofList p.name) with
  | some value => rfl
  | none => cases p.fallback <;> simp

/-- A text has a cut, and to replace its placeholders is to fill the cut. -/
theorem exists_cut (lookup : String → Option String) (whole : List Char) (out : String) :
    ∃ c : Cut, c.Cuts whole ∧
      (substitute lookup whole out).toList = out.toList ++ c.fill (filling lookup) := by
  fun_induction substitute lookup whole out with
  | case1 out => exact ⟨⟨[], []⟩, ⟨rfl, bare_nil []⟩, by simp [Cut.fill]⟩
  | case2 out rest p after h _ ih =>
    obtain ⟨c, ⟨htext, hexact⟩, hout⟩ := ih
    obtain ⟨hp, hrest⟩ := read?_eq_some_iff.mp h
    refine ⟨⟨([], p) :: c.pieces, c.last⟩, ⟨?_, hp, bare_nil _, hexact⟩, ?_⟩
    · rw [Cut.text_cons, htext, chars_eq_body, hrest]
      rfl
    · rw [hout, Cut.fill_cons, String.toList_append, toList_value]
      simp
  | case3 out rest h ih =>
    obtain ⟨c, hcuts, hout⟩ := ih
    refine ⟨c.push '$', hcuts.push (not_starts_of_read? h), ?_⟩
    rw [hout, Cut.fill_push]
    simp
  | case4 ch rest out hopen ih =>
    obtain ⟨c, hcuts, hout⟩ := ih
    refine ⟨c.push ch, hcuts.push (not_starts_of_ne ?_), ?_⟩
    · intro behind heq
      simp only [List.cons.injEq] at heq
      exact hopen behind heq.1 heq.2
    · rw [hout, Cut.fill_push]
      simp

/-- Every content has one cut into placeholders and bare text, and replacing is
filling that cut, whatever the lookup: all bare text is kept, and what is put in
is not looked at again. -/
theorem replaceAll_fills (content : String) :
    ∃ c : Cut, (∀ c' : Cut, c'.Cuts content.toList ↔ c' = c) ∧
      ∀ lookup, replaceAll lookup content = String.ofList (c.fill (filling lookup)) := by
  obtain ⟨c, hcuts, -⟩ := exists_cut (fun _ => none) content.toList ""
  refine ⟨c, ?_, ?_⟩
  · intro c'
    constructor
    · intro hcuts'
      exact Cut.eq_of_cuts hcuts' hcuts
    · intro heq
      rw [heq]
      exact hcuts
  · intro lookup
    -- the cut does not depend on the lookup, being the only one
    obtain ⟨c', hcuts', hfill⟩ := exists_cut lookup content.toList ""
    rw [Cut.eq_of_cuts hcuts' hcuts] at hfill
    rw [replaceAll, ← String.ofList_toList (s := substitute lookup content.toList ""), hfill]
    simp

-- the opening before another one is bare text, and one inside a default is not looked at
example :
    replaceAll (fun name => if name = "A" then some "v" else none)
      "$\x7b$\x7bA\x7d $\x7bB:$\x7bA\x7d\x7d" = "$\x7bv $\x7bA\x7d" := by
  cbv

end Phrasebook.Placeholder
