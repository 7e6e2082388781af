import Phrasebook.Book.Action
import Phrasebook.Proofs.Reference.Run

/-
  What the bound on the passes does to an expansion.

  Under any bound the passes are the same, one after the other, as long as they
  are made. A bound that is not reached leaves the whole expansion as it is; one
  that is reached cuts off what later passes would have made.

  What is proved:
    1. `expand_eq_of_stop` — an expansion that a bound does not cut short is the
       same under every larger one.
    2. `feeds_of_passBound` — one that a bound cuts short is where every
       expansion under a larger one comes to, after the same questions.
    3. `bound_truncates` — both by texts, questions and warnings, where a name
       always has the same answer.
-/

namespace Phrasebook.Reference

section
variable {σ : Type} {lookup : Lookup σ} {input : String} {start : σ}

/-! ## Any lookup -/

/-- A bound ends every expansion, with no more passes than it allows. -/
theorem expand_cases_of_bound (lookup : Lookup σ) (input : String) (start : σ) {bound : Nat}
    (hb : bound ≠ 0) :
    ∃ k < bound, ∃ text s, lookup.Feeds bound (budget input) input start k text s ∧
      ¬GoesOn bound (budget input) k (pass lookup text s) ∧
      expand lookup bound input start = ending (budget input) k (pass lookup text s) := by
  rcases exists_last lookup bound (budget input) input start bound with
    ⟨text, s, hfed⟩ | ⟨k, hk, text, s, hfed, hlast⟩
  · exact absurd (hfed.lt_bound hb) (Nat.lt_irrefl _)
  · exact ⟨k, hk, text, s, hfed, hlast, expand_eq_ending hfed hlast⟩

theorem expand_eq_of_stop {bound bound' : Nat} (hb : bound ≠ 0)
    (hle : bound' = 0 ∨ bound < bound')
    (hstop : (expand lookup bound input start).stop ≠ .passBound) :
    expand lookup bound' input start = expand lookup bound input start := by
  obtain ⟨k, -, text, s, hfed, hlast, he⟩ := expand_cases_of_bound lookup input start hb
  rw [he] at hstop ⊢
  refine expand_eq_ending (hfed.mono hb (hle.imp_right Nat.le_of_lt)) fun hgo => ?_
  rcases ending_cases hlast with ⟨-, hreplaced⟩ | ⟨-, hlimit⟩ | ⟨hbound, -⟩
  · exact absurd hgo.1 (by rw [hreplaced]; exact Bool.false_ne_true)
  · exact absurd hgo.2.1 (Nat.not_le.mpr hlimit)
  · exact hstop hbound

/-- Where the bound was reached, an expansion under a larger one goes on from
the text and the state of the lookup that were come to. -/
theorem feeds_of_passBound {bound bound' : Nat} (hb : bound ≠ 0)
    (hle : bound' = 0 ∨ bound < bound')
    (hstop : (expand lookup bound input start).stop = .passBound) :
    lookup.Feeds bound' (budget input) input start bound (expand lookup bound input start).text
      (expand lookup bound input start).state := by
  obtain ⟨k, hk, text, s, hfed, hlast, he⟩ := expand_cases_of_bound lookup input start hb
  rw [he] at hstop ⊢
  rw [text_ending, state_ending]
  rcases ending_cases hlast with ⟨hsettled, -⟩ | ⟨houtgrown, -⟩ |
    ⟨-, hreplaced, hlimit, -, hreached⟩
  · rw [hsettled] at hstop; cases hstop
  · rw [houtgrown] at hstop; cases hstop
  obtain rfl : k + 1 = bound := Nat.le_antisymm hk hreached
  exact (hfed.mono hb (hle.imp_right Nat.le_of_lt)).next ⟨hreplaced, hlimit, hle⟩

/-! ## The warning -/

/-- An expansion is reported if its last pass replaced something: by its size
if it has outgrown the budget, and by its passes only otherwise. -/
theorem warning?_ending (limit passes : Nat) (last : Pass σ) (input : String) :
    (ending limit passes last).warning? input =
      if last.replaced = false then none
      else some (if limit < last.text.utf8ByteSize then
        .outgrown (passes + 1) last.text.utf8ByteSize input
        else .passBound (passes + 1) input) := by
  rw [ending]
  split_ifs <;> rfl

theorem warning?_eq_passBound_iff {e : Expansion σ} :
    (∃ passes, e.warning? input = some (.passBound passes input)) ↔ e.stop = .passBound := by
  rw [Expansion.warning?]
  cases e.stop <;> simp

end

/-! ## The same answer every time -/

section
variable {answer : String → Option String} {input : String}

/-- The names that the first passes over a text ask for, in order. -/
def askedIn (answer : String → Option String) (passes : Nat) (text : String) : List String :=
  (List.range passes).flatMap fun i => names (tokens (textAfter answer i text).toList).1

theorem askedIn_succ (passes : Nat) (text : String) :
    askedIn answer (passes + 1) text =
      askedIn answer passes text ++ names (tokens (textAfter answer passes text).toList).1 := by
  rw [askedIn, List.range_succ, List.flatMap_append, List.flatMap_singleton]
  rfl

theorem askedIn_prefix {j k : Nat} (h : j ≤ k) (text : String) :
    askedIn answer j text <+: askedIn answer k text := by
  induction h with
  | refl => exact List.prefix_rfl
  | step _ ih =>
    rw [askedIn_succ]
    exact ih.trans (List.prefix_append _ _)

theorem textAfter_succ_pass (answer : String → Option String) (passes : Nat) (text : String)
    (s : Unit) :
    textAfter answer (passes + 1) text =
      (pass (Lookup.pure answer) (textAfter answer passes text) s).text := by
  rw [textAfter_succ_last, pass_pure]

/-- What a run gives to its passes is the texts that follow from each other,
and before each the names of the texts so far have been asked for. -/
theorem feeds_pure {bound limit k : Nat} {text : String} {s : Unit × List String}
    (h : (Lookup.recorded (Lookup.pure answer)).Feeds bound limit input ((), []) k text s) :
    text = textAfter answer k input ∧ s = ((), askedIn answer k input) := by
  induction h with
  | first => exact ⟨rfl, rfl⟩
  | next _ _ ih =>
    obtain ⟨rfl, rfl⟩ := ih
    rw [pass_recorded, textAfter_succ_pass, askedIn_succ]
    exact ⟨rfl, rfl⟩

/-- An expansion that ends comes to the text of its last pass, after the
questions of all its passes, and is reported in one way if that pass replaced
something and not at all otherwise. -/
theorem expand_last {bound : Nat}
    (hstop : (expand (Lookup.recorded (Lookup.pure answer)) bound input ((), [])).stop ≠ .endless) :
    let e := expand (Lookup.recorded (Lookup.pure answer)) bound input ((), [])
    ∃ k, (∀ j, (∃ text s, (Lookup.recorded (Lookup.pure answer)).Feeds bound (budget input) input
        ((), []) j text s) ↔ j ≤ k) ∧
      (0 < bound → k + 1 ≤ bound) ∧
      e.text = textAfter answer (k + 1) input ∧ e.state.2 = askedIn answer (k + 1) input ∧
      e.warning? input =
        if (pass (Lookup.pure answer) (textAfter answer k input) ()).replaced = false then none
        else some (if budget input < (textAfter answer (k + 1) input).utf8ByteSize then
          .outgrown (k + 1) (textAfter answer (k + 1) input).utf8ByteSize input
          else .passBound (k + 1) input) := by
  intro e
  obtain ⟨k, text, s, hfed, hlast, he⟩ : ∃ k text s, _ ∧ _ ∧ e = _ := expand_cases hstop
  obtain ⟨rfl, rfl⟩ := feeds_pure hfed
  have htext := textAfter_succ_pass answer k input ()
  refine ⟨k, fun j => hfed.exists_iff_le hlast, fun hb => hfed.lt_bound hb.ne', ?_, ?_, ?_⟩
  · rw [he, text_ending, pass_recorded, htext]
  · rw [he, state_ending, pass_recorded, askedIn_succ]
  · rw [he, warning?_ending, pass_recorded, htext]

/-- Every expansion comes to the text of its last pass, and is reported in one
way if that replaced something and not at all otherwise. One that is not reported
for its passes is the same under every larger bound and without one. One that is
reported for them is where each of these comes to after the same questions, and
goes on from. -/
theorem bound_truncates (answer : String → Option String) (input : String) :
    let lookup := Lookup.recorded (Lookup.pure answer)
    let e := fun bound => expand lookup bound input ((), [])
    let t := fun passes => textAfter answer passes input
    (∀ bound, expand (Lookup.pure answer) bound input () = (e bound).plain) ∧
    (t 0 = input ∧ ∀ i, t (i + 1) = (pass (Lookup.pure answer) (t i) ()).text) ∧
    (∀ bound, (e bound).stop ≠ .endless → ∃ k,
      (∀ j, (∃ text s, lookup.Feeds bound (budget input) input ((), []) j text s) ↔ j ≤ k) ∧
      (0 < bound → k + 1 ≤ bound) ∧
      (e bound).text = t (k + 1) ∧ (e bound).state.2 = askedIn answer (k + 1) input ∧
      (e bound).warning? input =
        if (pass (Lookup.pure answer) (t k) ()).replaced = false then none
        else some (if budget input < (t (k + 1)).utf8ByteSize then
          .outgrown (k + 1) (t (k + 1)).utf8ByteSize input else .passBound (k + 1) input)) ∧
    ∀ bound, 1 ≤ bound →
      (e bound).stop ≠ .endless ∧
      ((e bound).warning? input = none ∨
          (∃ passes size, (e bound).warning? input = some (.outgrown passes size input)) →
        ∀ bound', bound' = 0 ∨ bound < bound' → e bound' = e bound) ∧
      ((∃ passes, (e bound).warning? input = some (.passBound passes input)) →
        (e bound).text = t bound ∧ (e bound).state.2 = askedIn answer bound input ∧
        ∀ bound', bound' = 0 ∨ bound < bound' →
          lookup.Feeds bound' (budget input) input ((), []) bound (e bound).text
            (e bound).state ∧
          ((e bound').stop ≠ .endless → ∃ k, bound < k ∧ (e bound').text = t k ∧
            (e bound').state.2 = askedIn answer k input ∧
            (e bound).state.2 <+: (e bound').state.2)) := by
  intro lookup e t
  refine ⟨fun bound => expand_recorded [], ⟨rfl, fun i => textAfter_succ_pass answer i input ()⟩,
    fun bound hstop => expand_last hstop, fun bound hb => ⟨?_, ?_, ?_⟩⟩
  · obtain ⟨k, -, text, s, -, -, he⟩ : ∃ k < bound, ∃ text s, _ ∧ _ ∧ e bound = _ :=
      expand_cases_of_bound lookup input ((), []) (Nat.ne_of_gt hb)
    rw [he]
    exact ending_stop_ne_endless _ _ _
  · intro hwarning bound' hle
    refine expand_eq_of_stop (Nat.ne_of_gt hb) hle fun hstop => ?_
    obtain ⟨passes, hbound⟩ := warning?_eq_passBound_iff.mpr hstop
    rcases hwarning with hnone | ⟨_, _, hsize⟩
    · cases hbound.symm.trans hnone
    · cases hbound.symm.trans hsize
  · intro hwarning
    have hfed (bound' : Nat) (hle : bound' = 0 ∨ bound < bound') :=
      feeds_of_passBound (Nat.ne_of_gt hb) hle (warning?_eq_passBound_iff.mp hwarning)
    obtain ⟨htext, hstate⟩ := feeds_pure (hfed 0 (.inl rfl))
    have hasked : (e bound).state.2 = askedIn answer bound input := congrArg Prod.snd hstate
    refine ⟨htext, hasked, fun bound' hle => ⟨hfed bound' hle, fun hstop => ?_⟩⟩
    obtain ⟨k, hmade, -, htext', hasked', -⟩ := expand_last hstop
    -- the larger run makes the pass that the bound has cut off, and may make more
    have hk := (hmade bound).mp ⟨_, _, hfed bound' hle⟩
    refine ⟨k + 1, Nat.lt_succ_of_le hk, htext', hasked', ?_⟩
    rw [hasked, hasked']
    exact askedIn_prefix (Nat.le_succ_of_le hk) input

end

/-- A definition that names itself, and one that names nothing. -/
def looping (name : String) : Option String :=
  if name = "loop" then some "#{loop}!"
  else if name = "done" then some "Done"
  else none

/-- What these definitions make of an input, and the questions on the way. -/
def expandLooping (bound : Nat) (input : String) : Expansion (Unit × List String) :=
  expand (Lookup.recorded (Lookup.pure looping)) bound input ((), [])

theorem bound_truncates_looping :
    ((expandLooping 2 "#{done} #{n}").warning? "#{done} #{n}" = none ∧
      ∀ bound, bound = 0 ∨ 2 < bound →
        expandLooping bound "#{done} #{n}" = expandLooping 2 "#{done} #{n}") ∧
    ((expandLooping 2 "#{loop}").warning? "#{loop}" = some (.passBound 2 "#{loop}") ∧
      (expandLooping 2 "#{loop}").text = "#{loop}!!" ∧
      ∀ bound, 2 < bound → ∃ k, 2 < k ∧
        (expandLooping bound "#{loop}").text = textAfter looping k "#{loop}" ∧
        ["loop", "loop"] <+: (expandLooping bound "#{loop}").state.2) := by
  have hnone : (expandLooping 2 "#{done} #{n}").warning? "#{done} #{n}" = none := by cbv
  have hcycle : (expandLooping 2 "#{loop}").warning? "#{loop}" = some (.passBound 2 "#{loop}") := by
    cbv
  have htext : (expandLooping 2 "#{loop}").text = "#{loop}!!" := by cbv
  have hasked : (expandLooping 2 "#{loop}").state.2 = ["loop", "loop"] := by cbv
  obtain ⟨-, hsame, -⟩ := (bound_truncates looping "#{done} #{n}").2.2.2 2 (by decide)
  have hloop := (bound_truncates looping "#{loop}").2.2.2
  obtain ⟨-, -, hcut⟩ := hloop 2 (by decide)
  obtain ⟨-, -, hlater⟩ := hcut ⟨2, hcycle⟩
  refine ⟨⟨hnone, hsame (.inl hnone)⟩, hcycle, htext, fun bound hbound => ?_⟩
  obtain ⟨hends, -⟩ := hloop bound (by omega)
  obtain ⟨k, hk, hk', -, hprefix⟩ := (hlater bound (.inr hbound)).2 hends
  exact ⟨k, hk, hk', hasked ▸ hprefix⟩

end Phrasebook.Reference
