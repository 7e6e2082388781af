import Phrasebook.Proofs.Reference.Answers
import Phrasebook.Reference.Expansion

/-
  Passes one after the other, where the answer to a name is always the same.

  A pass puts a text of its own in the place of every token (`put`), and the
  texts after the passes follow from each other (`step`, `textAfter`). An
  expansion goes from one to the next as long as a pass replaces something and
  neither limit is reached (`run_next`), and is over when none was replaced
  (`run_settled`).
-/

namespace Phrasebook.Reference

/-- What a pass puts in the place of a token. -/
def put (answer : String → Option String) : Token → List Char
  | .reference name => filled name (answer (String.ofList name))
  | t => t.chars

def step (answer : String → Option String) (text : List Char) : List Char :=
  (tokens text).1.flatMap (put answer) ++ (tokens text).2.chars

/-- Whether a text has a reference that is answered. -/
def Answered (answer : String → Option String) (text : List Char) : Bool :=
  (names (tokens text).1).any fun name => (answer name).isSome

def textAfter (answer : String → Option String) : Nat → String → String
  | 0, text => text
  | passes + 1, text => textAfter answer passes (pass (Lookup.pure answer) text ()).text

section
variable {answer : String → Option String}

theorem askAll_pure (row : List String) (s : Unit) :
    askAll (Lookup.pure answer) row s = (row.map answer, s) := by
  induction row with
  | nil => rfl
  | cons name row ih => rw [askAll, ih]; rfl

theorem fill_pure (row : List Token) :
    fill row ((names row).map answer) = row.flatMap (put answer) := by
  induction row with
  | nil => rfl
  | cons t row ih =>
    rw [List.flatMap_cons, ← ih]
    cases t <;> simp [fill, put]

theorem flatMap_put {row : List Token} (h : names row = []) :
    row.flatMap (put answer) = written row := by
  rw [← fill_pure, fill_of_names_nil h]

theorem pass_pure (text : String) (s : Unit) :
    pass (Lookup.pure answer) text s =
      ⟨String.ofList (step answer text.toList), Answered answer text.toList, s⟩ := by
  rw [pass_eq_fill]
  simp only [askAll_pure, fill_pure, List.any_map]
  rfl

@[simp] theorem textAfter_zero (text : String) : textAfter answer 0 text = text := rfl

theorem textAfter_succ (passes : Nat) (text : String) :
    textAfter answer (passes + 1) text =
      textAfter answer passes (String.ofList (step answer text.toList)) := by
  rw [textAfter, pass_pure]

theorem textAfter_eq_iterate (passes : Nat) (text : String) :
    textAfter answer passes text = String.ofList ((step answer)^[passes] text.toList) := by
  induction passes generalizing text with
  | zero => rw [textAfter, Function.iterate_zero_apply, String.ofList_toList]
  | succ passes ih =>
    rw [textAfter_succ, ih, String.toList_ofList, Function.iterate_succ_apply]

theorem textAfter_succ_last (passes : Nat) (text : String) :
    textAfter answer (passes + 1) text =
      String.ofList (step answer (textAfter answer passes text).toList) := by
  rw [textAfter_eq_iterate, textAfter_eq_iterate, Function.iterate_succ_apply',
    String.toList_ofList]

/-- Where the text of every token is closed, a pass reads each by itself. -/
theorem tokens_flatMap {f : Token → List Char} {row : List Token} (h : ∀ t ∈ row, Closed (f t))
    (rest : List Char) :
    tokens (row.flatMap f ++ rest) =
      (row.flatMap (fun t => (tokens (f t)).1) ++ (tokens rest).1, (tokens rest).2) := by
  induction row with
  | nil => rfl
  | cons t row ih =>
    obtain ⟨ht, hrow⟩ := List.forall_mem_cons.mp h
    rw [List.flatMap_cons, List.append_assoc, tokens_append ht, ih hrow, List.flatMap_cons,
      List.append_assoc]

theorem tokens_step {text : List Char} (h : ∀ t ∈ (tokens text).1, Closed (put answer t)) :
    tokens (step answer text) =
      ((tokens text).1.flatMap (fun t => (tokens (put answer t)).1), (tokens text).2) := by
  have htail := tokens_chars (reads_tokens text).proper_tail
  rw [step, tokens_flatMap h, htail, List.append_nil]

/-- What a text asks for after a pass, by what is asked for in the places of its
tokens. -/
theorem mem_names_step_iff {text : List Char} (asks : String → String → Prop)
    (hclosed : ∀ t ∈ (tokens text).1, Closed (put answer t))
    (hput : ∀ t ∈ (tokens text).1, ∀ u,
      u ∈ names (tokens (put answer t)).1 ↔ ∃ n ∈ names [t], asks n u) (u : String) :
    u ∈ names (tokens (step answer text)).1 ↔ ∃ n ∈ names (tokens text).1, asks n u := by
  rw [tokens_step hclosed, mem_names_flatMap]
  constructor
  · rintro ⟨t, ht, hu⟩
    obtain ⟨n, hn, hasks⟩ := (hput t ht u).mp hu
    exact ⟨n, mem_names_iff_exists.mpr ⟨t, ht, hn⟩, hasks⟩
  · rintro ⟨n, hn, hasks⟩
    obtain ⟨t, ht, hn⟩ := mem_names_iff_exists.mp hn
    exact ⟨t, ht, (hput t ht u).mpr ⟨n, hn, hasks⟩⟩

theorem step_append {a : List Char} (h : Closed a) (b : List Char) :
    step answer (a ++ b) = step answer a ++ step answer b := by
  have ha : step answer a = (tokens a).1.flatMap (put answer) := by
    rw [step, h, Tail.chars, List.append_nil]
  rw [ha, step, step, tokens_append h, List.flatMap_append, List.append_assoc]

theorem step_of_names_nil {text : List Char} (h : names (tokens text).1 = []) :
    step answer text = text := by
  rw [step, flatMap_put h, written_tokens]

theorem answered_eq_false_iff {text : List Char} :
    Answered answer text = false ↔ ∀ name ∈ names (tokens text).1, answer name = none := by
  simp only [Answered, List.any_eq_false, Option.not_isSome_iff_eq_none]

end

/-! ## Running on -/

section
variable {σ : Type} {lookup : Lookup σ} {maxPasses limit : Nat} (passes : Nat) {text : String}
  {s : σ}

theorem run_settled (h : (pass lookup text s).replaced = false) :
    lookup.run maxPasses limit passes text s =
      some ⟨(pass lookup text s).text, passes, .settled, (pass lookup text s).state⟩ := by
  rw [Lookup.run]
  exact if_pos h

theorem run_next (h : (pass lookup text s).replaced = true)
    (hlimit : (pass lookup text s).text.utf8ByteSize ≤ limit)
    (hbound : maxPasses = 0 ∨ passes + 1 < maxPasses) :
    lookup.run maxPasses limit passes text s =
      lookup.run maxPasses limit (passes + 1) (pass lookup text s).text
        (pass lookup text s).state := by
  have hgo : ¬(maxPasses ≠ 0 ∧ maxPasses ≤ passes + 1) := by omega
  rw [Lookup.run]
  simp only [h, Bool.true_eq_false, if_false, Nat.not_lt.mpr hlimit, hgo]

/-- A run that settles has made its passes one after the other, and nothing was
replaced in the last. -/
theorem settled_of_run {answer : String → Option String} {e : Expansion Unit}
    (h : (Lookup.pure answer).run maxPasses limit passes text () = some e)
    (hstop : e.stop = .settled) :
    ∃ k, e.passes = passes + k ∧ e.text = textAfter answer (k + 1) text ∧
      Answered answer (textAfter answer k text).toList = false := by
  refine Lookup.run.partial_correctness (Lookup.pure answer) maxPasses limit
    (fun passes text _ e => e.stop = .settled → ∃ k, e.passes = passes + k ∧
      e.text = textAfter answer (k + 1) text ∧
      Answered answer (textAfter answer k text).toList = false) ?_ passes text () e h hstop
  -- one pass: it settles, is cut short at one of the limits, or goes on
  intro rec ih passes text _ e h hstop
  simp only [pass_pure] at h
  split_ifs at h with hreplaced hlimit hbound
  · cases h
    exact ⟨0, rfl, by rw [textAfter_succ, textAfter_zero], hreplaced⟩
  · cases h
    cases hstop
  · cases h
    cases hstop
  · obtain ⟨k, hpasses, htext, hlast⟩ := ih _ _ _ e h hstop
    rw [← textAfter_succ] at htext hlast
    exact ⟨k + 1, by omega, htext, hlast⟩

end

section
variable {σ : Type} {lookup : Lookup σ} {maxPasses : Nat} {input : String} {s : σ}

theorem expand_of_run {e : Expansion σ}
    (h : lookup.run maxPasses (budget input) 0 input s = some e) :
    expand lookup maxPasses input s = e :=
  congrArg (Option.getD · _) h

theorem run_of_expand (h : (expand lookup maxPasses input s).stop = .settled) :
    lookup.run maxPasses (budget input) 0 input s = some (expand lookup maxPasses input s) := by
  cases hrun : lookup.run maxPasses (budget input) 0 input s with
  | none =>
    rw [expand, hrun] at h
    cases h
  | some e => rw [expand_of_run hrun]

end

theorem settled_of_expand {answer : String → Option String} {maxPasses : Nat} {input : String}
    (h : (expand (Lookup.pure answer) maxPasses input ()).stop = .settled) :
    let e := expand (Lookup.pure answer) maxPasses input ()
    e.text = textAfter answer (e.passes + 1) input ∧
      Answered answer (textAfter answer e.passes input).toList = false := by
  obtain ⟨k, hpasses, htext, hlast⟩ := settled_of_run 0 (run_of_expand h) h
  rw [Nat.zero_add] at hpasses
  rw [← hpasses] at htext hlast
  exact ⟨htext, hlast⟩

end Phrasebook.Reference
