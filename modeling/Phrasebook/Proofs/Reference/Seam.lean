import Phrasebook.Proofs.Reference.Cursor
import Phrasebook.Proofs.Reference.Escape
import Phrasebook.Proofs.Reference.Run

/-
  A text in two pieces.

  A pass over two texts, one behind the other, is held against a pass over the first
  and then one over the second, with the lookup as the first has left it. A first
  text that is read to its end makes no difference to the second. Any other has a `#`
  or an open `#{` left over, and that shows where it takes in what stands behind it:
  another name is asked for then, or one more, whatever the lookup answers.

  What is proved:
    1. `pass_append` — a pass goes over a closed text, and then over what is behind it.
    2. `pass_tail_append` — so it does over the end of a text, if that spares what is
       behind it.
    3. `names_tail_append_ne` — if it does not, something else is asked for.
    4. `seamless_iff` — so whether a cut shows depends on the two texts only.
    5. `seam_at_token_border` — no cut behind a closed text shows, and behind any other
       there is one that does.
-/

namespace Phrasebook.Reference

/-! ## Passes one after the other -/

section
variable {σ : Type}

/-- Two passes, the second from the state that the first has left, as one. -/
def Pass.append (first second : Pass σ) : Pass σ :=
  ⟨first.text ++ second.text, first.replaced || second.replaced, second.state⟩

/-- A pass that leaves a text as it is and asks for nothing. -/
def Pass.still (text : List Char) (s : σ) : Pass σ := ⟨String.ofList text, false, s⟩

theorem Pass.append_assoc (first second third : Pass σ) :
    (first.append second).append third = first.append (second.append third) := by
  simp only [Pass.append, String.append_assoc, Bool.or_assoc]

theorem Pass.still_append (a b : List Char) (s : σ) (next : Pass σ) :
    (Pass.still a s).append ((Pass.still b s).append next) =
      (Pass.still (a ++ b) s).append next := by
  rw [← Pass.append_assoc]
  simp [Pass.append, Pass.still]

variable (lookup : Lookup σ)

/-- A pass over one text and then a pass over another. -/
def passEach (a b : String) (s : σ) : Pass σ :=
  (pass lookup a s).append (pass lookup b (pass lookup a s).state)

def asked (text : String) (s : σ) : List String :=
  (pass (Lookup.recorded lookup) text (s, [])).state.2

/-- A cut that leaves no trace: a pass over both texts yields what the passes over each
do, and asks for the same in the same order. -/
structure Seamless (a b : String) (s : σ) : Prop where
  yields : pass lookup (a ++ b) s = passEach lookup a b s
  asks : asked lookup (a ++ b) s = asked lookup a s ++ asked lookup b (pass lookup a s).state

theorem asked_eq (text : String) (s : σ) :
    asked lookup text s = names (tokens text.toList).1 := by
  rw [asked, pass_recorded]
  rfl

/-! ## Behind a closed text -/

theorem pass_append {a : List Char} (h : Closed a) (b : List Char) (s : σ) :
    pass lookup (String.ofList (a ++ b)) s =
      passEach lookup (String.ofList a) (String.ofList b) s := by
  have hlength := length_askAll lookup (names (tokens a).1) s
  simp only [passEach, Pass.append, pass_eq_fill, String.toList_ofList, tokens_append h,
    names_append, askAll_append, fill_append hlength, List.any_append]
  rw [h, Tail.chars, List.append_nil, ← String.ofList_append, List.append_assoc]

theorem pass_still_append {a : List Char} (h : Closed a) (hnames : names (tokens a).1 = [])
    (b : List Char) (s : σ) :
    pass lookup (String.ofList (a ++ b)) s =
      (Pass.still a s).append (pass lookup (String.ofList b) s) := by
  have hstill : pass lookup (String.ofList a) s = .still a s :=
    pass_of_names_nil lookup (by rwa [String.toList_ofList]) s
  rw [pass_append lookup h, passEach, hstill]
  rfl

end

/-! ## Behind what is left over -/

/-- What ends a text takes in nothing of the text behind it. An open `#{` is closed by
any brace. A `#` turns the pairs of a row of `#` round, so that the last of them is by
itself or no longer is, and that matters if `{` and a brace come next. -/
def Tail.Spares : Tail → List Char → Prop
  | .empty, _ => True
  | .hash, rest => (rest.dropWhile (· == '#')).head? = some '{' → '}' ∉ rest
  | .unclosed _, rest => '}' ∉ rest

def Tail.decSpares : (tail : Tail) → (rest : List Char) → Decidable (tail.Spares rest)
  | .empty, _ => inferInstanceAs (Decidable True)
  | .hash, rest =>
    inferInstanceAs (Decidable ((rest.dropWhile (· == '#')).head? = some '{' → '}' ∉ rest))
  | .unclosed _, rest => inferInstanceAs (Decidable ('}' ∉ rest))

instance (tail : Tail) (rest : List Char) : Decidable (tail.Spares rest) :=
  tail.decSpares rest

section
variable {σ : Type} (lookup : Lookup σ)

theorem pass_of_no_close {text : List Char} (h : '}' ∉ text) (s : σ) :
    pass lookup (String.ofList text) s = .still text s :=
  pass_of_names_nil lookup (by rw [String.toList_ofList, names_tokens_of_no_close h]) s

theorem pass_append_of_no_close {a b : List Char} (ha : '}' ∉ a) (hb : '}' ∉ b) (s : σ) :
    pass lookup (String.ofList (a ++ b)) s =
      (Pass.still a s).append (pass lookup (String.ofList b) s) := by
  have hab : '}' ∉ a ++ b := by simp [ha, hb]
  rw [pass_of_no_close lookup hab, pass_of_no_close lookup hb]
  simp [Pass.append, Pass.still]

theorem pass_token_append {t : Token} (h : t.Proper) (hname : names [t] = [])
    (rest : List Char) (s : σ) :
    pass lookup (String.ofList (t.chars ++ rest)) s =
      (Pass.still t.chars s).append (pass lookup (String.ofList rest) s) :=
  pass_still_append lookup (closed_token h) (by rw [tokens_token h, hname]) rest s

/-- A `#` before a text that does not go on with `{`, a row of further `#` apart. -/
theorem pass_hash_append {rest : List Char}
    (h : (rest.dropWhile (· == '#')).head? ≠ some '{') (s : σ) :
    pass lookup (String.ofList ('#' :: rest)) s =
      (Pass.still ['#'] s).append (pass lookup (String.ofList rest) s) := by
  induction rest with
  | nil => exact pass_append_of_no_close lookup (a := ['#']) (by decide) (by decide) s
  | cons c rest ih =>
    by_cases hc : c = '#'
    · -- the row is a pair further, or it begins one character later
      subst hc
      have hpair := pass_token_append lookup (t := .pair '#') (by simp [Token.Proper]) rfl rest s
      rw [ih h, Pass.still_append]
      exact hpair
    · have hopen : c ≠ '{' := by
        rw [List.dropWhile_cons_of_neg (by simpa using hc)] at h
        simpa using h
      have hpair := pass_token_append lookup (t := .pair c) hopen rfl rest s
      have hplain := pass_token_append lookup (t := .plain c) hc rfl rest s
      simp only [Token.chars, List.cons_append, List.nil_append] at hpair hplain
      rw [hpair, hplain, Pass.still_append]
      rfl

/-- The end of a text stays in its place before a text that it spares. -/
theorem pass_tail_append {tail : Tail} (htail : tail.Proper) {rest : List Char}
    (h : tail.Spares rest) (s : σ) :
    pass lookup (String.ofList (tail.chars ++ rest)) s =
      (Pass.still tail.chars s).append (pass lookup (String.ofList rest) s) := by
  cases tail with
  | empty => simp [Tail.chars, Pass.append, Pass.still]
  | hash =>
    by_cases hopen : (rest.dropWhile (· == '#')).head? = some '{'
    · exact pass_append_of_no_close lookup (a := ['#']) (by decide) (h hopen) s
    · exact pass_hash_append lookup hopen s
  | unclosed inner =>
    have hinner : '}' ∉ inner := htail
    exact pass_append_of_no_close lookup (by simp [Tail.chars, hinner]) h s

/-- So does a whole text before one that its end spares. -/
theorem pass_append_of_spares {row : List Token} (h : ∀ t ∈ row, t.Proper) {tail : Tail}
    (htail : tail.Proper) {rest : List Char} (hrest : tail.Spares rest) (s : σ) :
    pass lookup (String.ofList (written row ++ tail.chars ++ rest)) s =
      passEach lookup (String.ofList (written row ++ tail.chars)) (String.ofList rest) s := by
  have hclosed := closed_written h
  have hstill : ∀ s, pass lookup (String.ofList tail.chars) s = .still tail.chars s :=
    pass_of_names_nil lookup (by rw [String.toList_ofList, tokens_chars htail]; rfl)
  rw [List.append_assoc, pass_append lookup hclosed, passEach, pass_tail_append lookup htail hrest,
    ← Pass.append_assoc, passEach, pass_append lookup hclosed, passEach, hstill]
  rfl

end

/-! ## Where the end of a text takes something in -/

theorem length_of_inside? {name : List Char} {u : String} (h : inside? name = some u) :
    u.length < name.length := by
  have hname := written_tokens name
  rw [inside?] at h
  cases htail : (tokens name).2 with
  | empty => rw [htail] at h; cases h
  | hash => rw [htail] at h; cases h
  | unclosed rest =>
    rw [htail] at h hname
    cases h
    rw [← hname]
    simp [Tail.chars]
    omega

theorem names_name_close {name : List Char} (h : '}' ∉ name) (rest : List Char) :
    names (tokens (name ++ '}' :: rest)).1 =
      (inside? name).toList ++ names (tokens rest).1 := by
  obtain ⟨row, hrow, hnames⟩ := tokens_close h
  have hclosed : Closed (name ++ ['}']) := by rw [Closed, hrow]
  have := tokens_append hclosed rest
  rw [List.append_assoc, List.singleton_append] at this
  rw [this, names_append, hrow, hnames]

/-- The brace that closes an open `#{` asks for a longer name than it does without. -/
theorem names_open_append_ne {inner rest : List Char} (hinner : '}' ∉ inner)
    (hrest : '}' ∈ rest) :
    names (tokens ('#' :: '{' :: (inner ++ rest))).1 ≠ names (tokens rest).1 := by
  obtain ⟨name, after, rfl, hname⟩ := List.eq_append_cons_of_mem hrest
  have hboth : '}' ∉ inner ++ name := by simp [hinner, hname]
  intro heq
  rw [names_name_close hname, ← List.append_assoc, tokens_reference hboth, names_reference,
    ← List.singleton_append, List.append_cancel_right_eq] at heq
  cases hinside : inside? name with
  | none => rw [hinside] at heq; cases heq
  | some u =>
    have hlt := length_of_inside? hinside
    rw [hinside] at heq
    cases heq
    simp at hlt

theorem names_hash_append_ne {rest : List Char}
    (hopen : (rest.dropWhile (· == '#')).head? = some '{') (hclose : '}' ∈ rest) :
    names (tokens ('#' :: rest)).1 ≠ names (tokens rest).1 := by
  induction rest with
  | nil => cases hclose
  | cons c rest ih =>
    by_cases hc : c = '#'
    · -- behind a pair the rest is read by itself, and so the two change places
      subst hc
      rw [tokens_pair (c := '#') (by decide), names_pair]
      exact (ih hopen (by simpa using hclose)).symm
    · have hbrace : c = '{' := by
        rw [List.dropWhile_cons_of_neg (by simpa using hc)] at hopen
        simpa using hopen
      subst hbrace
      rw [tokens_plain (c := '{') (by decide), names_plain]
      exact @names_open_append_ne [] rest (by simp) (by simpa using hclose)

theorem names_tail_append_ne {tail : Tail} (htail : tail.Proper) {rest : List Char}
    (h : ¬tail.Spares rest) :
    names (tokens (tail.chars ++ rest)).1 ≠ names (tokens rest).1 := by
  cases tail with
  | empty => exact absurd trivial h
  | hash =>
    obtain ⟨hopen, hclose⟩ := Classical.not_imp.mp h
    exact names_hash_append_ne hopen (not_not.mp hclose)
  | unclosed inner => exact names_open_append_ne htail (not_not.mp h)

/-! ## Cuts -/

section
variable {σ : Type} {lookup : Lookup σ} {a b : String} {s : σ}

/-- Whether a cut shows is decided by how the first text ends and what the second one
is, whatever the lookup is and knows. -/
theorem seamless_iff : Seamless lookup a b s ↔ (tokens a.toList).2.Spares b.toList := by
  obtain ⟨proper, proper_tail, written_eq⟩ := reads_tokens a.toList
  have hboth : tokens (a ++ b).toList =
      ((tokens a.toList).1 ++ (tokens ((tokens a.toList).2.chars ++ b.toList)).1,
        (tokens ((tokens a.toList).2.chars ++ b.toList)).2) := by
    rw [String.toList_append, ← tokens_written_append proper, ← List.append_assoc, written_eq]
  constructor
  · intro h
    by_contra hspares
    have hasks := h.asks
    rw [asked_eq, asked_eq, asked_eq, hboth, names_append, List.append_cancel_left_eq] at hasks
    exact names_tail_append_ne proper_tail hspares hasks
  · intro hspares
    have hyields : ∀ {τ : Type} (lookup : Lookup τ) (t : τ),
        pass lookup (a ++ b) t = passEach lookup a b t := by
      intro τ lookup t
      have := pass_append_of_spares lookup proper proper_tail hspares t
      rwa [written_eq, String.ofList_append, String.ofList_toList, String.ofList_toList] at this
    refine ⟨hyields lookup s, ?_⟩
    -- the lookup that keeps its questions has kept them over the cut, too
    have hkept := congrArg (·.state.2) (hyields (Lookup.recorded lookup) (s, []))
    simp only [passEach, Pass.append, pass_recorded, List.nil_append] at hkept
    rw [asked_eq, asked_eq, asked_eq, hkept]

end

theorem spares_of_closed {text : List Char} (h : Closed text) (rest : List Char) :
    (tokens text).2.Spares rest := by
  rw [h]
  trivial

/-- A reference with no name is taken in by any end of a text. -/
theorem not_spares_braces {tail : Tail} (h : tail ≠ .empty) : ¬tail.Spares ['{', '}'] := by
  cases tail with
  | empty => exact absurd rfl h
  | hash => decide
  | unclosed inner => simp [Tail.Spares]

/-- A pass over the bytes of a text always has a result. If the first of two texts is
read to its end, the pass over both writes what the pass over the first does and then
what the pass over the second does, with the lookup as the first has left it; it has
replaced something if either has, and it asks for what they ask for, in this order. If
the first text is not read to its end there is a second one with which this fails, for
every lookup. -/
theorem seam_at_token_border (a : String) :
    (∀ (σ : Type) (lookup : Lookup σ) (text : String) (s : σ),
      bytePass lookup text s = some (pass lookup text s)) ∧
    (Closed a.toList → ∀ (b : String) (σ : Type) (lookup : Lookup σ) (s : σ),
      Seamless lookup a b s) ∧
    (¬Closed a.toList → ∃ b : String, ∀ (σ : Type) (lookup : Lookup σ) (s : σ),
      ¬Seamless lookup a b s) := by
  refine ⟨fun σ lookup text s => bytePass_eq_scan lookup s text, ?_, ?_⟩
  · intro h b σ lookup s
    exact seamless_iff.mpr (spares_of_closed h b.toList)
  · intro h
    refine ⟨"\x7b\x7d", fun σ lookup s hseamless => ?_⟩
    exact not_spares_braces h (seamless_iff.mp hseamless)

/-- A text that ends in a pair may be cut off, one that ends in a single `#` may not. -/
theorem seam_at_token_border_pair :
    Closed "#{a}é##".toList ∧ Seamless (Lookup.noting letter) "#{a}é##" "{n}#{b}" [] ∧
      ¬Closed "#{a}#".toList ∧
      ∃ b : String, ∀ (σ : Type) (lookup : Lookup σ) (s : σ), ¬Seamless lookup "#{a}#" b s := by
  have hclosed : Closed "#{a}é##".toList := by cbv
  have hopen : ¬Closed "#{a}#".toList := by
    have htail : (tokens "#{a}#".toList).2 = .hash := by cbv
    rw [Closed, htail]
    exact Tail.noConfusion
  exact ⟨hclosed, (seam_at_token_border _).2.1 hclosed _ _ _ _, hopen,
    (seam_at_token_border _).2.2 hopen⟩

end Phrasebook.Reference
