import Mathlib
import Phrasebook.Reference.Expansion

/-
  The grammar of references has one reading for every text.

  What is proved:
    1. `reads_tokens` — the tokens and the tail of a text are proper and, put
       one after the other, write the text.
    2. `tokens_of_reads` — no other row of proper tokens with a proper tail
       writes it.
    3. `tokens_append` — a text that is read to its end can stand before any
       other text without changing how that is read.
-/

namespace Phrasebook.Reference

def written (row : List Token) : List Char := row.flatMap Token.chars

/-- A row of proper tokens and a proper tail that write a text. -/
structure Reads (text : List Char) (row : List Token) (tail : Tail) : Prop where
  proper : ∀ t ∈ row, t.Proper
  proper_tail : tail.Proper
  written_eq : written row ++ tail.chars = text

/-- A text that is read to its end: no `#` is left over and no `#{` is open. -/
def Closed (text : List Char) : Prop := (tokens text).2 = .empty

instance (text : List Char) : Decidable (Closed text) :=
  inferInstanceAs (Decidable ((tokens text).2 = .empty))

@[simp] theorem written_cons (t : Token) (row : List Token) :
    written (t :: row) = t.chars ++ written row := rfl

@[simp] theorem written_append (row row' : List Token) :
    written (row ++ row') = written row ++ written row' :=
  List.flatMap_append

/-! ## The first token -/

theorem not_mem_takeWhile (rest : List Char) : '}' ∉ rest.takeWhile (· != '}') := by
  intro h
  have := List.mem_takeWhile_imp h
  simp at this

/-- A name in front of its brace is what a reader of a reference takes. -/
theorem takeWhile_name {name : List Char} (h : '}' ∉ name) (rest : List Char) :
    (name ++ '}' :: rest).takeWhile (· != '}') = name ∧
      (name ++ '}' :: rest).dropWhile (· != '}') = '}' :: rest := by
  have hp : ∀ c ∈ name, (c != '}') = true := by
    intro c hc
    simp only [bne_iff_ne, ne_eq]
    rintro rfl
    exact h hc
  rw [List.takeWhile_append_of_pos hp, List.dropWhile_append_of_pos hp]
  simp

theorem dropWhile_eq_nil_iff {rest : List Char} :
    rest.dropWhile (· != '}') = [] ↔ '}' ∉ rest := by
  rw [List.dropWhile_eq_nil_iff]
  constructor
  · intro h hm
    simpa using h '}' hm
  · intro h c hc
    simp only [bne_iff_ne, ne_eq]
    rintro rfl
    exact h hc

theorem takeWhile_append_brace {rest after : List Char} {c : Char}
    (h : rest.dropWhile (· != '}') = c :: after) :
    rest.takeWhile (· != '}') ++ '}' :: after = rest := by
  have hc : c = '}' := by
    have := List.head_dropWhile_not (p := (· != '}')) (l := rest) (by simp [h])
    simpa [h] using this
  subst hc
  rw [← h]
  exact List.takeWhile_append_dropWhile

theorem tokens_nil : tokens [] = ([], .empty) := by
  rw [tokens]

theorem tokens_plain {c : Char} (h : c ≠ '#') (rest : List Char) :
    tokens (c :: rest) = (.plain c :: (tokens rest).1, (tokens rest).2) := by
  rw [tokens]
  all_goals simp [h]

theorem tokens_pair {c : Char} (h : c ≠ '{') (rest : List Char) :
    tokens ('#' :: c :: rest) = (.pair c :: (tokens rest).1, (tokens rest).2) := by
  rw [tokens]
  simp [h]

theorem tokens_reference {name : List Char} (h : '}' ∉ name) (rest : List Char) :
    tokens ('#' :: '{' :: (name ++ '}' :: rest)) =
      (.reference name :: (tokens rest).1, (tokens rest).2) := by
  obtain ⟨htake, hdrop⟩ := takeWhile_name h rest
  rw [tokens]
  split
  · next h' => rw [hdrop] at h'; cases h'
  · next h' =>
    rw [hdrop] at h'
    cases h'
    rw [htake]

theorem tokens_unclosed {rest : List Char} (h : '}' ∉ rest) :
    tokens ('#' :: '{' :: rest) = ([], .unclosed rest) := by
  rw [tokens]
  split
  · rfl
  · next h' => rw [dropWhile_eq_nil_iff.mpr h] at h'; cases h'

theorem tokens_hash : tokens ['#'] = ([], .hash) := by
  rw [tokens]

/-- A proper token stands first in the row of what it begins. -/
theorem tokens_chars_append {t : Token} (h : t.Proper) (rest : List Char) :
    tokens (t.chars ++ rest) = (t :: (tokens rest).1, (tokens rest).2) := by
  cases t with
  | plain c => exact tokens_plain h rest
  | pair c => exact tokens_pair h rest
  | reference name =>
    have := tokens_reference h rest
    simpa [Token.chars] using this

theorem tokens_token {t : Token} (h : t.Proper) : tokens t.chars = ([t], .empty) := by
  have := tokens_chars_append h []
  rwa [List.append_nil, tokens_nil] at this

theorem tokens_chars {tail : Tail} (h : tail.Proper) : tokens tail.chars = ([], tail) := by
  cases tail with
  | empty => exact tokens_nil
  | hash => exact tokens_hash
  | unclosed rest => exact tokens_unclosed h

/-! ## Reading -/

theorem Reads.cons {text : List Char} {row : List Token} {tail : Tail} {t : Token}
    (ht : t.Proper) (h : Reads text row tail) : Reads (t.chars ++ text) (t :: row) tail where
  proper := List.forall_mem_cons.mpr ⟨ht, h.proper⟩
  proper_tail := h.proper_tail
  written_eq := by rw [written_cons, List.append_assoc, h.written_eq]

theorem Reads.nil {tail : Tail} (h : tail.Proper) : Reads tail.chars [] tail where
  proper := by simp
  proper_tail := h
  written_eq := rfl

theorem reads_tokens (text : List Char) : Reads text (tokens text).1 (tokens text).2 := by
  fun_induction tokens text with
  | case1 => exact @Reads.nil .empty trivial
  | case2 rest h => exact @Reads.nil (.unclosed rest) (dropWhile_eq_nil_iff.mp h)
  | case3 rest c after h _ row tail heq ih =>
    rw [heq] at ih
    have := ih.cons (t := .reference (rest.takeWhile (· != '}'))) (not_mem_takeWhile rest)
    simpa [Token.chars, takeWhile_append_brace h] using this
  | case4 => exact @Reads.nil .hash trivial
  | case5 c rest h row tail heq ih =>
    rw [heq] at ih
    exact ih.cons (t := .pair c) h
  | case6 c rest h h' h'' row tail heq ih =>
    rw [heq] at ih
    -- a `#` would have been read with what follows it, or as the last one
    have hc : c ≠ '#' := by
      rintro rfl
      cases rest with
      | nil => exact h' rfl rfl
      | cons d rest => exact h'' d rest rfl rfl
    exact ih.cons (t := .plain c) hc

/-- A row of proper tokens is read as it stands, whatever follows it. -/
theorem tokens_written_append {row : List Token} (h : ∀ t ∈ row, t.Proper) (rest : List Char) :
    tokens (written row ++ rest) = (row ++ (tokens rest).1, (tokens rest).2) := by
  induction row with
  | nil => rfl
  | cons t row ih =>
    obtain ⟨ht, hrow⟩ := List.forall_mem_cons.mp h
    rw [written_cons, List.append_assoc, tokens_chars_append ht, ih hrow]
    rfl

/-- A text has no other reading than its tokens and its tail. -/
theorem tokens_of_reads {text : List Char} {row : List Token} {tail : Tail}
    (h : Reads text row tail) : tokens text = (row, tail) := by
  rw [← h.written_eq, tokens_written_append h.proper, tokens_chars h.proper_tail]
  simp

theorem written_tokens (text : List Char) :
    written (tokens text).1 ++ (tokens text).2.chars = text :=
  (reads_tokens text).written_eq

theorem proper_tokens (text : List Char) : ∀ t ∈ (tokens text).1, t.Proper :=
  (reads_tokens text).proper

/-! ## Closed texts -/

theorem written_tokens_of_closed {text : List Char} (h : Closed text) :
    written (tokens text).1 = text := by
  have := written_tokens text
  rwa [h, Tail.chars, List.append_nil] at this

theorem tokens_written {row : List Token} (h : ∀ t ∈ row, t.Proper) :
    tokens (written row) = (row, .empty) := by
  have := tokens_written_append h []
  simpa [tokens_nil] using this

theorem closed_written {row : List Token} (h : ∀ t ∈ row, t.Proper) : Closed (written row) := by
  rw [Closed, tokens_written h]

theorem written_map_plain (text : List Char) : written (text.map .plain) = text := by
  induction text with
  | nil => rfl
  | cons c text ih => rw [List.map_cons, written_cons, ih]; rfl

theorem tokens_of_no_hash {text : List Char} (h : '#' ∉ text) :
    tokens text = (text.map .plain, .empty) := by
  have hp : ∀ t ∈ text.map Token.plain, t.Proper := by
    intro t ht
    obtain ⟨c, hc, rfl⟩ := List.mem_map.mp ht
    rintro rfl
    exact h hc
  have := tokens_written hp
  rwa [written_map_plain] at this

theorem tokens_append {a : List Char} (h : Closed a) (b : List Char) :
    tokens (a ++ b) = ((tokens a).1 ++ (tokens b).1, (tokens b).2) := by
  have := tokens_written_append (proper_tokens a) b
  rwa [written_tokens_of_closed h] at this

end Phrasebook.Reference
