import Phrasebook.Proofs.Reference.Grammar
import Phrasebook.Reference.Expansion

/-
  A pass is its row of tokens filled with answers.

  The names of the references are asked for from left to right, once for each
  reference, and nothing else is asked. Every answer is put in the place of its
  reference, a reference without one is escaped, and all other tokens and the
  tail are written as they stand (`pass_eq_fill`).
-/

namespace Phrasebook.Reference

def Token.name? : Token → Option String
  | .reference name => some (String.ofList name)
  | _ => none

def names (row : List Token) : List String := row.filterMap Token.name?

/-- How a reference without an answer is written: `##{name}`. -/
def escaped (name : List Char) : List Char := '#' :: Token.chars (.reference name)

def filled (name : List Char) : Option String → List Char
  | some answer => answer.toList
  | none => escaped name

/-- A row with the answers in the places of its references, in order. -/
def fill : List Token → List (Option String) → List Char
  | [], _ => []
  | .reference name :: row, answers =>
    filled name (answers.head?.join) ++ fill row answers.tail
  | t :: row, answers => t.chars ++ fill row answers

@[simp] theorem names_nil : names [] = [] := rfl

@[simp] theorem names_plain (c : Char) (row : List Token) :
    names (.plain c :: row) = names row := rfl

@[simp] theorem names_pair (c : Char) (row : List Token) :
    names (.pair c :: row) = names row := rfl

@[simp] theorem names_reference (name : List Char) (row : List Token) :
    names (.reference name :: row) = String.ofList name :: names row := rfl

@[simp] theorem names_append (row row' : List Token) :
    names (row ++ row') = names row ++ names row' :=
  List.filterMap_append

theorem mem_names_flatMap {row : List Token} {f : Token → List Token} {name : String} :
    name ∈ names (row.flatMap f) ↔ ∃ t ∈ row, name ∈ names (f t) := by
  rw [names, List.filterMap_flatMap, List.mem_flatMap]
  rfl

theorem mem_names_iff_exists {row : List Token} {name : String} :
    name ∈ names row ↔ ∃ t ∈ row, name ∈ names [t] := by
  have := @mem_names_flatMap row (fun t => [t]) name
  rwa [List.flatMap_singleton'] at this

theorem mem_names_iff {row : List Token} {name : String} :
    name ∈ names row ↔ .reference name.toList ∈ row := by
  rw [names, List.mem_filterMap]
  constructor
  · rintro ⟨_ | _ | inner, ht, h⟩
    · cases h
    · cases h
    · cases h
      rwa [String.toList_ofList]
  · intro h
    exact ⟨_, h, by rw [Token.name?, String.ofList_toList]⟩

section
variable {σ : Type} (lookup : Lookup σ)

/-- The answers to names asked for in order, and the state after the last. -/
def askAll : List String → σ → List (Option String) × σ
  | [], s => ([], s)
  | name :: rest, s =>
    let turn := lookup name s
    let later := askAll rest turn.2
    (turn.1 :: later.1, later.2)

theorem askAll_append (row row' : List String) (s : σ) :
    askAll lookup (row ++ row') s =
      let first := askAll lookup row s
      let second := askAll lookup row' first.2
      (first.1 ++ second.1, second.2) := by
  induction row generalizing s with
  | nil => rfl
  | cons name row ih => rw [List.cons_append, askAll, ih]; rfl

/-- The lookup that also keeps the names it is asked for, oldest first. -/
def Lookup.recorded : Lookup (σ × List String) := fun name s =>
  let turn := lookup name s.1
  (turn.1, turn.2, s.2 ++ [name])

theorem length_askAll (row : List String) (s : σ) :
    (askAll lookup row s).1.length = row.length := by
  induction row generalizing s with
  | nil => rfl
  | cons name row ih => rw [askAll, List.length_cons, List.length_cons, ih]

/-- Names that are asked for are asked for once each, in their order. -/
theorem askAll_recorded (row : List String) (s : σ) (asked : List String) :
    askAll (Lookup.recorded lookup) row (s, asked) =
      ((askAll lookup row s).1, (askAll lookup row s).2, asked ++ row) := by
  induction row generalizing s asked with
  | nil => simp [askAll]
  | cons name row ih => simp [askAll, Lookup.recorded, ih]

/-- Rows one after the other take the answers to the one and then those to the other. -/
theorem fill_append {row : List Token} {answers : List (Option String)}
    (h : answers.length = (names row).length) (row' : List Token)
    (answers' : List (Option String)) :
    fill (row ++ row') (answers ++ answers') = fill row answers ++ fill row' answers' := by
  induction row generalizing answers with
  | nil =>
    rw [names_nil, List.length_nil, List.length_eq_zero_iff] at h
    rw [h]
    rfl
  | cons t row ih =>
    cases t with
    | plain c => simp only [List.cons_append, fill, ih h, List.append_assoc]
    | pair c => simp only [List.cons_append, fill, ih h, List.append_assoc]
    | reference name =>
      cases answers with
      | nil => cases h
      | cons answer answers =>
        have hrest : answers.length = (names row).length := Nat.succ.inj h
        simp only [List.cons_append, fill, List.head?_cons, List.tail_cons, ih hrest,
          List.append_assoc]

theorem fill_of_names_nil {row : List Token} (h : names row = []) (answers : List (Option String)) :
    fill row answers = written row := by
  induction row with
  | nil => rfl
  | cons t row ih =>
    cases t with
    | plain c => simp [fill, ih h]
    | pair c => simp [fill, ih h]
    | reference name => cases h

/-! ## The scan, token by token -/

theorem push_eq_append (out : String) (c : Char) : out.push c = out ++ String.ofList [c] := by
  rw [← String.append_singleton, String.singleton_eq_ofList]

theorem scan_plain {c : Char} (h : c ≠ '#') (rest : List Char) (out : String) (replaced : Bool)
    (s : σ) : scan lookup (c :: rest) out replaced s =
      scan lookup rest (out ++ String.ofList [c]) replaced s := by
  rw [scan, push_eq_append]
  all_goals simp [h]

theorem scan_pair {c : Char} (h : c ≠ '{') (rest : List Char) (out : String) (replaced : Bool)
    (s : σ) : scan lookup ('#' :: c :: rest) out replaced s =
      scan lookup rest (out ++ String.ofList ['#', c]) replaced s := by
  rw [scan, push_eq_append, push_eq_append, String.append_assoc, ← String.ofList_append]
  · rfl
  · simp [h]

/-- A reference is asked for once, and what it becomes is not read again. -/
theorem scan_reference {name : List Char} (h : '}' ∉ name) (rest : List Char) (out : String)
    (replaced : Bool) (s : σ) :
    scan lookup (Token.chars (.reference name) ++ rest) out replaced s =
      let turn := lookup (String.ofList name) s
      scan lookup rest (out ++ String.ofList (filled name turn.1)) (replaced || turn.1.isSome)
        turn.2 := by
  obtain ⟨htake, hdrop⟩ := takeWhile_name h rest
  have hchars : Token.chars (.reference name) ++ rest = '#' :: '{' :: (name ++ '}' :: rest) := by
    simp [Token.chars]
  rw [hchars, scan]
  split
  · next h' => rw [hdrop] at h'; cases h'
  · next h' =>
    rw [hdrop] at h'
    cases h'
    rw [htake]
    rcases hl : lookup (String.ofList name) s with ⟨_ | answer, s'⟩
    · simp [hl, filled, escaped, Token.chars]
    · simp [hl, filled]

theorem scan_chars {tail : Tail} (h : tail.Proper) (out : String) (replaced : Bool) (s : σ) :
    scan lookup tail.chars out replaced s = ⟨out ++ String.ofList tail.chars, replaced, s⟩ := by
  cases tail with
  | empty => simp [Tail.chars, scan]
  | hash => simp [Tail.chars, scan, push_eq_append]
  | unclosed rest =>
    rw [Tail.chars, scan]
    split
    · rfl
    · next h' => rw [dropWhile_eq_nil_iff.mpr h] at h'; cases h'

/-! ## The whole pass -/

theorem scan_eq_fill {row : List Token} (h : ∀ t ∈ row, t.Proper) {tail : Tail}
    (ht : tail.Proper) (out : String) (replaced : Bool) (s : σ) :
    scan lookup (written row ++ tail.chars) out replaced s =
      let asked := askAll lookup (names row) s
      ⟨out ++ String.ofList (fill row asked.1 ++ tail.chars),
        replaced || asked.1.any Option.isSome, asked.2⟩ := by
  -- on the row: what a token becomes is written before the rest is scanned
  induction row generalizing out replaced s with
  | nil => simp [written, names, askAll, fill, scan_chars lookup ht]
  | cons t row ih =>
    obtain ⟨hp, hrow⟩ := List.forall_mem_cons.mp h
    rw [written_cons, List.append_assoc]
    cases t with
    | plain c =>
      rw [Token.chars, List.singleton_append, scan_plain lookup hp, ih hrow, names_plain]
      simp only [String.append_assoc, ← String.ofList_append]
      rfl
    | pair c =>
      rw [Token.chars, List.cons_append, List.singleton_append, scan_pair lookup hp, ih hrow,
        names_pair]
      simp only [String.append_assoc, ← String.ofList_append]
      rfl
    | reference name =>
      rw [scan_reference lookup hp, ih hrow, names_reference, askAll]
      simp [fill, String.append_assoc, Bool.or_assoc]

/-- A pass writes the row of the text with the answers to its names, and the
tail behind it; it has replaced something if any name had an answer. -/
theorem pass_eq_fill (text : String) (s : σ) :
    pass lookup text s =
      let row := (tokens text.toList).1
      let asked := askAll lookup (names row) s
      ⟨String.ofList (fill row asked.1 ++ (tokens text.toList).2.chars),
        asked.1.any Option.isSome, asked.2⟩ := by
  obtain ⟨proper, proper_tail, written_eq⟩ := reads_tokens text.toList
  have := scan_eq_fill lookup proper proper_tail "" false s
  rw [written_eq] at this
  simpa [pass] using this

theorem pass_of_names_nil {text : String} (h : names (tokens text.toList).1 = []) (s : σ) :
    pass lookup text s = ⟨text, false, s⟩ := by
  rw [pass_eq_fill]
  simp only [h, askAll, fill_of_names_nil h, written_tokens, String.ofList_toList]
  rfl

end

end Phrasebook.Reference
