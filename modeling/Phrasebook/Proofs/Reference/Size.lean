import Phrasebook.Proofs.Reference.Cursor
import Phrasebook.Proofs.Reference.Run

/-
  The size of a text on its way through the passes.

  A pass changes the size of a text by what each of its references changes: an
  answer comes in the place of a reference that is three bytes longer than its
  name, and a reference without one gets a byte more.

  What is proved:
    1. `size_pass` — the size after a pass, to the byte.
    2. `output_bounded` — what a run gives to its passes and what it comes to,
       where no answer is longer than a given size.
    3. `lengthening_ends` — a run without a bound on its passes ends, where every
       answer is longer than the reference it comes for.
-/

namespace Phrasebook.Reference

theorem utf8ByteSize_eq (text : String) :
    text.utf8ByteSize = (Utf8.encode text.toList).length := by
  rw [Utf8.length_encode, String.ofList_toList]

theorem budget_eq (input : String) :
    budget input = min (16 * input.utf8ByteSize + 65536) (2 ^ 64 - 1) := by
  rw [budget, Nat.mul_comm]
  rfl

theorem le_budget {input : String} (h : input.utf8ByteSize < 2 ^ 63) :
    input.utf8ByteSize ≤ budget input := by
  rw [budget_eq]
  omega

theorem length_reference_chars (name : List Char) :
    (Utf8.encode (Token.chars (.reference name))).length = (Utf8.encode name).length + 3 := by
  have hlength := length_reference [] name
  simp only [List.nil_append, Utf8.encode_nil, List.length_nil] at hlength
  omega

theorem size_tokens (text : String) :
    text.utf8ByteSize = (Utf8.encode (written (tokens text.toList).1)).length +
      (Utf8.encode (tokens text.toList).2.chars).length := by
  rw [← List.length_append, ← Utf8.encode_append, written_tokens, ← utf8ByteSize_eq]

/-! ## What one pass changes -/

/-- What a reference to a name changes of the size: it gives way to its answer,
or gets a byte more. -/
def change (name : String) : Option String → Int
  -- an integer, since an answer can be shorter than its reference
  | some answer => answer.utf8ByteSize - (name.utf8ByteSize + 3)
  | none => 1

section
variable {σ : Type} (lookup : Lookup σ)

/-- What names asked for in order change of the size. -/
def changes : List String → σ → List Int
  | [], _ => []
  | name :: rest, s =>
    let turn := lookup name s
    change name turn.1 :: changes rest turn.2

@[simp] theorem length_changes (row : List String) (s : σ) :
    (changes lookup row s).length = row.length := by
  induction row generalizing s with
  | nil => rfl
  | cons name row ih => simp [changes, ih]

theorem mem_changes {row : List String} {s : σ} {x : Int} (h : x ∈ changes lookup row s) :
    ∃ name ∈ row, ∃ s', x = change name (lookup name s').1 := by
  induction row generalizing s with
  | nil => cases h
  | cons name row ih =>
    rw [changes, List.mem_cons] at h
    rcases h with rfl | h
    · exact ⟨name, List.mem_cons_self, s, rfl⟩
    · obtain ⟨name', hmem, hx⟩ := ih h
      exact ⟨name', List.mem_cons_of_mem _ hmem, hx⟩

theorem length_filled (name : List Char) (answer : Option String) :
    ((Utf8.encode (filled name answer)).length : Int) =
      (Utf8.encode (Token.chars (.reference name))).length +
        change (String.ofList name) answer := by
  cases answer with
  | none =>
    have hescaped : filled name none = '#' :: Token.chars (.reference name) := rfl
    have hhash : (String.utf8EncodeChar '#').length = 1 := rfl
    rw [hescaped, Utf8.encode_cons, List.length_append, hhash, change]
    push_cast
    ring
  | some answer =>
    rw [filled, change, length_reference_chars, ← utf8ByteSize_eq, ← Utf8.length_encode]
    push_cast
    ring

theorem length_fill (row : List Token) (s : σ) :
    ((Utf8.encode (fill row (askAll lookup (names row) s).1)).length : Int) =
      (Utf8.encode (written row)).length + (changes lookup (names row) s).sum := by
  induction row generalizing s with
  | nil => rfl
  | cons t row ih =>
    cases t with
    | plain c => simp [fill, ih, add_assoc]
    | pair c => simp [fill, ih, add_assoc]
    | reference name =>
      have hfilled := length_filled name (lookup (String.ofList name) s).1
      simp only [fill, names_reference, askAll, List.head?_cons, Option.join_some, List.tail_cons,
        Utf8.encode_append, List.length_append, written_cons, changes, List.sum_cons,
        Nat.cast_add, ih, hfilled]
      ring

/-- The size after a pass is the size before and what the references change. -/
theorem size_pass (text : String) (s : σ) :
    ((pass lookup text s).text.utf8ByteSize : Int) =
      text.utf8ByteSize + (changes lookup (names (tokens text.toList).1) s).sum := by
  have hfill := length_fill lookup (tokens text.toList).1 s
  rw [pass_eq_fill, size_tokens text, ← Utf8.length_encode]
  simp only [Utf8.encode_append, List.length_append, Nat.cast_add, hfill]
  ring

end

theorem three_mul_names_le (row : List Token) :
    3 * (names row).length ≤ (Utf8.encode (written row)).length := by
  induction row with
  | nil => rfl
  | cons t row ih =>
    rw [written_cons, Utf8.encode_append, List.length_append]
    cases t with
    | plain c => exact Nat.le_add_left_of_le ih
    | pair c => exact Nat.le_add_left_of_le ih
    | reference name =>
      rw [names_reference, List.length_cons, length_reference_chars]
      omega

theorem length_names_le (text : String) :
    (names (tokens text.toList).1).length ≤ text.utf8ByteSize / 3 := by
  have hrow := three_mul_names_le (tokens text.toList).1
  rw [Nat.le_div_iff_mul_le (by decide), size_tokens text]
  omega

theorem not_mem_of_mem_names {text : List Char} {name : String}
    (h : name ∈ names (tokens text).1) : '}' ∉ name.toList :=
  proper_tokens text _ (mem_names_iff.mp h)

/-! ## Answers that are not too long -/

section
variable {σ : Type} {lookup : Lookup σ}

/-- No answer of the lookup is longer than `size` bytes. -/
def Lookup.Within (lookup : Lookup σ) (size : Nat) : Prop :=
  ∀ name s answer, (lookup name s).1 = some answer → answer.utf8ByteSize ≤ size

theorem change_le {size : Nat} (h : lookup.Within size) (name : String) (s : σ) :
    change name (lookup name s).1 ≤ (max (size - 3) 1 : Nat) := by
  cases hanswer : (lookup name s).1 with
  | none => simp [change]
  | some answer =>
    have := h name s answer hanswer
    rw [change]
    omega

/-- A pass makes a text longer by no more than its references can. -/
theorem size_pass_le {growth : Nat} (h : ∀ name s, change name (lookup name s).1 ≤ growth)
    (text : String) (s : σ) :
    (pass lookup text s).text.utf8ByteSize ≤
      text.utf8ByteSize + text.utf8ByteSize / 3 * growth := by
  have hsum := List.sum_le_card_nsmul
    (changes lookup (names (tokens text.toList).1) s) growth fun x hx => by
      obtain ⟨name, -, s', rfl⟩ := mem_changes lookup hx
      exact h name s'
  have hcount := Nat.mul_le_mul_right growth (length_names_le text)
  rw [length_changes, nsmul_eq_mul] at hsum
  zify at hcount ⊢
  rw [size_pass]
  linarith

/-! ## Answers that are longer than their references -/

/-- Every answer is longer than the reference it comes for. -/
def Lookup.Lengthens (lookup : Lookup σ) : Prop :=
  ∀ name s answer, '}' ∉ name.toList → (lookup name s).1 = some answer →
    (String.ofList (Token.chars (.reference name.toList))).utf8ByteSize < answer.utf8ByteSize

theorem one_le_change (h : lookup.Lengthens) {name : String} (hname : '}' ∉ name.toList) (s : σ) :
    1 ≤ change name (lookup name s).1 := by
  cases hanswer : (lookup name s).1 with
  | none => rfl
  | some answer =>
    have hlt := h name s answer hname hanswer
    rw [← Utf8.length_encode, length_reference_chars, ← utf8ByteSize_eq] at hlt
    rw [change]
    omega

theorem names_ne_nil_of_replaced {text : String} {s : σ}
    (h : (pass lookup text s).replaced = true) : names (tokens text.toList).1 ≠ [] := by
  intro hnames
  rw [pass_of_names_nil lookup hnames] at h
  cases h

theorem size_lt_pass (h : lookup.Lengthens) {text : String} {s : σ}
    (hreplaced : (pass lookup text s).replaced = true) :
    text.utf8ByteSize < (pass lookup text s).text.utf8ByteSize := by
  have hsum := List.card_nsmul_le_sum
    (changes lookup (names (tokens text.toList).1) s) 1 fun x hx => by
      obtain ⟨name, hname, s', rfl⟩ := mem_changes lookup hx
      exact one_le_change h (not_mem_of_mem_names hname) s'
  have hcount := List.length_pos_of_ne_nil (names_ne_nil_of_replaced hreplaced)
  rw [length_changes, nsmul_eq_mul, mul_one] at hsum
  zify at hcount ⊢
  rw [size_pass]
  omega

/-! ## Whole runs -/

variable {maxPasses : Nat} {input : String} {start : σ}

/-- What a run gives to a pass keeps to the budget. -/
theorem size_le_of_feeds (hn : input.utf8ByteSize < 2 ^ 63) {k : Nat} {text : String} {s : σ}
    (h : lookup.Feeds maxPasses (budget input) input start k text s) :
    text.utf8ByteSize ≤ budget input := by
  cases h with
  | first => exact le_budget hn
  | next _ hgo => exact hgo.2.1

/-- Every pass that a run goes on from has made the text longer. -/
theorem add_le_size_of_feeds {limit : Nat} (hlonger : lookup.Lengthens) {k : Nat} {text : String}
    {s : σ} (h : lookup.Feeds maxPasses limit input start k text s) :
    input.utf8ByteSize + k ≤ text.utf8ByteSize := by
  induction h with
  | first => exact Nat.le_refl _
  | next _ hgo ih =>
    have := size_lt_pass hlonger hgo.1
    omega

end

/-- Every text that a run gives to a pass keeps to the budget, and what the run
comes to is longer by no more than the references of such a text can make it:
each takes three bytes at least, and gives way to an answer or gets a byte
more. -/
theorem output_bounded {σ : Type} (lookup : Lookup σ) (size maxPasses : Nat) (input : String)
    (start : σ) (hn : input.utf8ByteSize < 2 ^ 63) (hsize : lookup.Within size) :
    let room := min (16 * input.utf8ByteSize + 65536) (2 ^ 64 - 1)
    let e := expand lookup maxPasses input start
    (∀ k text s, lookup.Feeds maxPasses (budget input) input start k text s →
      text.utf8ByteSize ≤ room) ∧
    (e.stop ≠ .endless → e.text.utf8ByteSize ≤ room + room / 3 * max (size - 3) 1) := by
  intro room e
  have hroom : budget input = room := budget_eq input
  refine ⟨fun k text s h => hroom ▸ size_le_of_feeds hn h, fun hstop => ?_⟩
  obtain ⟨k, text, s, hfed, -, he⟩ : ∃ k text s,
    lookup.Feeds maxPasses (budget input) input start k text s ∧ _ ∧ e = _ := expand_cases hstop
  have htext : text.utf8ByteSize ≤ room := hroom ▸ size_le_of_feeds hn hfed
  calc e.text.utf8ByteSize
      = (pass lookup text s).text.utf8ByteSize := by rw [he, text_ending]
    _ ≤ text.utf8ByteSize + text.utf8ByteSize / 3 * max (size - 3) 1 :=
        size_pass_le (change_le hsize) text s
    _ ≤ room + room / 3 * max (size - 3) 1 :=
        Nat.add_le_add htext (Nat.mul_le_mul_right _ (Nat.div_le_div_right htext))

def twice : Lookup Nat := fun name turns =>
  if name = "a" ∧ turns < 2 then (some "#{a}!", turns + 1) else (none, turns)

theorem output_bounded_twice :
    let e := expand twice 0 "#{a}" 0
    ("#{a}".utf8ByteSize < 2 ^ 63 ∧ twice.Within 5 ∧ e.stop ≠ .endless) ∧
      (∀ k text turns, twice.Feeds 0 (budget "#{a}") "#{a}" 0 k text turns →
        text.utf8ByteSize ≤ 65600) ∧
      e.text.utf8ByteSize ≤ 65600 + 65600 / 3 * 2 := by
  intro e
  have hn : "#{a}".utf8ByteSize < 2 ^ 63 := by decide
  have hsize : twice.Within 5 := by
    intro name turns answer h
    unfold twice at h
    split_ifs at h
    cases h
    decide
  have hstop : (expand twice 0 "#{a}" 0).stop = .settled := by cbv
  have hne : e.stop ≠ .endless := hstop ▸ Stop.noConfusion
  have hroom : min (16 * "#{a}".utf8ByteSize + 65536) (2 ^ 64 - 1) = 65600 := by decide
  obtain ⟨hfed, hresult⟩ := output_bounded twice 5 0 "#{a}" 0 hn hsize
  rw [hroom] at hfed hresult
  exact ⟨⟨hn, hsize, hne⟩, hfed, hresult hne⟩

/-- Where every answer is longer than its reference, a run without a bound on
its passes ends all the same: each pass before the last makes the text longer,
so the budget leaves no room for more. It ends with a pass that replaced
nothing or with a text that has outgrown the budget. -/
theorem lengthening_ends {σ : Type} (lookup : Lookup σ) (input : String) (start : σ)
    (hn : input.utf8ByteSize < 2 ^ 63) (hlonger : lookup.Lengthens) :
    let size := input.utf8ByteSize
    let room := min (16 * size + 65536) (2 ^ 64 - 1)
    let e := expand lookup 0 input start
    ∃ k text s, lookup.Feeds 0 (budget input) input start k text s ∧
      (∀ j, (∃ text s, lookup.Feeds 0 (budget input) input start j text s) ↔ j ≤ k) ∧
      k + 1 ≤ room - size + 1 ∧
      e.text = (pass lookup text s).text ∧
      (e.stop = .settled ∧ (pass lookup text s).replaced = false ∨
        e.stop = .outgrown ∧ room < e.text.utf8ByteSize) := by
  intro size room e
  have hroom : budget input = room := budget_eq input
  rcases exists_last lookup 0 (budget input) input start (room - size + 1) with
    ⟨text, s, hfed⟩ | ⟨k, hk, text, s, hfed, hlast⟩
  -- no text of the budget is that much longer than the input
  · have hlow := add_le_size_of_feeds hlonger hfed
    have hhigh : text.utf8ByteSize ≤ room := hroom ▸ size_le_of_feeds hn hfed
    have hinput : size ≤ room := hroom ▸ le_budget hn
    omega
  · have he : e = ending (budget input) k (pass lookup text s) := expand_eq_ending hfed hlast
    refine ⟨k, text, s, hfed, fun j => hfed.exists_iff_le hlast, hk, ?_, ?_⟩
    · rw [he, text_ending]
    · rw [he, text_ending, ← hroom]
      rcases ending_cases hlast with ⟨hstop, hreplaced⟩ | ⟨hstop, hlimit⟩ | ⟨-, -, -, hbound, -⟩
      · exact .inl ⟨hstop, hreplaced⟩
      · exact .inr ⟨hstop, hlimit⟩
      · exact absurd rfl hbound

def branching (name : String) : Option String :=
  if name = "a" then some "#{a}#{a}" else none

theorem lengthening_ends_branching :
    let lookup := Lookup.pure branching
    ("#{a}".utf8ByteSize < 2 ^ 63 ∧ lookup.Lengthens) ∧
      let e := expand lookup 0 "#{a}" ()
      (∃ k < 65597, ∀ j,
        (∃ text s, lookup.Feeds 0 (budget "#{a}") "#{a}" () j text s) ↔ j ≤ k) ∧
      (e.stop = .settled ∨ e.stop = .outgrown ∧ 65600 < e.text.utf8ByteSize) := by
  intro lookup
  have hn : "#{a}".utf8ByteSize < 2 ^ 63 := by decide
  have hlonger : lookup.Lengthens := by
    intro name s answer _ h
    replace h : branching name = some answer := h
    unfold branching at h
    split_ifs at h with hname
    cases h
    rw [hname]
    decide
  have hroom : min (16 * "#{a}".utf8ByteSize + 65536) (2 ^ 64 - 1) = 65600 := by decide
  obtain ⟨k, _, _, -, hmade, hk, -, hend⟩ := lengthening_ends lookup "#{a}" () hn hlonger
  rw [hroom] at hk hend
  exact ⟨⟨hn, hlonger⟩, ⟨k, hk, hmade⟩, hend.imp_left And.left⟩

end Phrasebook.Reference
