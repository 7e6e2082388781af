import Phrasebook.Proofs.Reference.Iteration

/-
  The passes of a run, for any lookup and any bound.

  A run gives a text to a pass and goes on from what the pass has made of it,
  if something was replaced, the limit is kept, and the bound allows another
  pass (`GoesOn`). `Feeds` is the texts it gives to its passes one by one, and
  what the lookup knows each time; it is there for runs that never end, too.

  What is proved:
    1. `run_eq_some_iff` — a run ends with the pass after which it does not go
       on, and with no other; `expand_cases` says so of an expansion.
    2. `exists_last` — it makes any number of passes or ends on the way.
    3. `Feeds.mono` — a larger bound leaves the passes of a run as they are.
    4. `expand_alike` — lookups that answer alike make the same of a text;
       `expand_recorded` — so does one that keeps its questions.
-/

namespace Phrasebook.Reference

/-- After a pass that replaced something a run goes on, if the text keeps to
the limit and the pass was not the last one that the bound allows. -/
def GoesOn {σ : Type} (maxPasses limit passes : Nat) (next : Pass σ) : Prop :=
  next.replaced = true ∧ next.text.utf8ByteSize ≤ limit ∧ (maxPasses = 0 ∨ passes + 1 < maxPasses)

instance {σ : Type} (maxPasses limit passes : Nat) (next : Pass σ) :
    Decidable (GoesOn maxPasses limit passes next) :=
  inferInstanceAs (Decidable (_ ∧ _ ∧ _))

/-- What a run comes to with its last pass, `passes` having been made before. -/
def ending {σ : Type} (limit passes : Nat) (last : Pass σ) : Expansion σ :=
  if last.replaced = false then ⟨last.text, passes, .settled, last.state⟩
  else if limit < last.text.utf8ByteSize then ⟨last.text, passes + 1, .outgrown, last.state⟩
  else ⟨last.text, passes + 1, .passBound, last.state⟩

/-- A run from `input` gives `text` to its pass number `k`, counted from 0,
and the lookup is in state `s` by then. -/
inductive Lookup.Feeds {σ : Type} (lookup : Lookup σ) (maxPasses limit : Nat) (input : String)
    (start : σ) : (k : Nat) → (text : String) → (s : σ) → Prop
  | first : Feeds lookup maxPasses limit input start 0 input start
  | next {k : Nat} {text : String} {s : σ} :
    Feeds lookup maxPasses limit input start k text s →
    GoesOn maxPasses limit k (pass lookup text s) →
    Feeds lookup maxPasses limit input start (k + 1) (pass lookup text s).text
      (pass lookup text s).state

section
variable {σ : Type} {lookup : Lookup σ} {maxPasses limit : Nat} {input : String} {start : σ}

/-! ## One pass further -/

/-- The limits are looked at in their order: either the run goes on, or this
was its last pass. -/
theorem verdict_eq (passes : Nat) (next : Pass σ) (later : Option (Expansion σ)) :
    (if next.replaced = false then some ⟨next.text, passes, .settled, next.state⟩
      else if limit < next.text.utf8ByteSize then
        some ⟨next.text, passes + 1, .outgrown, next.state⟩
      else if maxPasses ≠ 0 ∧ maxPasses ≤ passes + 1 then
        some ⟨next.text, passes + 1, .passBound, next.state⟩
      else later) =
      if GoesOn maxPasses limit passes next then later else some (ending limit passes next) := by
  unfold GoesOn ending
  split_ifs with hreplaced hgo hlimit hgo hbound hgo hgo
  · simp [hreplaced] at hgo
  · rfl
  · omega
  · rfl
  · omega
  · rfl
  · rfl
  · exact absurd ⟨by simpa using hreplaced, by omega, by omega⟩ hgo

theorem run_eq_ite (passes : Nat) (text : String) (s : σ) :
    lookup.run maxPasses limit passes text s =
      let next := pass lookup text s
      if GoesOn maxPasses limit passes next then
        lookup.run maxPasses limit (passes + 1) next.text next.state
      else some (ending limit passes next) := by
  rw [Lookup.run]
  exact verdict_eq _ _ _

theorem GoesOn.mono {bound bound' passes : Nat} {next : Pass σ} (h : GoesOn bound limit passes next)
    (hb : bound ≠ 0) (hle : bound' = 0 ∨ bound ≤ bound') : GoesOn bound' limit passes next := by
  obtain ⟨hreplaced, hlimit, hbound⟩ := h
  exact ⟨hreplaced, hlimit, by omega⟩

/-! ## The passes that are made -/

namespace Lookup.Feeds

theorem run_eq {k : Nat} {text : String} {s : σ}
    (h : lookup.Feeds maxPasses limit input start k text s) :
    lookup.run maxPasses limit 0 input start = lookup.run maxPasses limit k text s := by
  induction h with
  | first => rfl
  | next _ hgo ih => rw [ih, run_eq_ite]; exact if_pos hgo

/-- What a pass is given depends on its number only, not on the bound or the
limit. -/
theorem unique {bound limit' k : Nat} {text text' : String} {s s' : σ}
    (h : lookup.Feeds maxPasses limit input start k text s)
    (h' : lookup.Feeds bound limit' input start k text' s') : text = text' ∧ s = s' := by
  induction h generalizing text' s' with
  | first => cases h'; exact ⟨rfl, rfl⟩
  | next _ _ ih =>
    cases h' with
    | next hfed _ =>
      obtain ⟨rfl, rfl⟩ := ih hfed
      exact ⟨rfl, rfl⟩

theorem mono {bound bound' k : Nat} {text : String} {s : σ}
    (h : lookup.Feeds bound limit input start k text s) (hb : bound ≠ 0)
    (hle : bound' = 0 ∨ bound ≤ bound') : lookup.Feeds bound' limit input start k text s := by
  induction h with
  | first => exact .first
  | next _ hgo ih => exact ih.next (hgo.mono hb hle)

theorem lt_bound {k : Nat} {text : String} {s : σ}
    (h : lookup.Feeds maxPasses limit input start k text s) (hb : maxPasses ≠ 0) :
    k < maxPasses := by
  cases h with
  | first => exact Nat.pos_of_ne_zero hb
  | next _ hgo =>
    have := hgo.2.2
    omega

theorem exists_of_le {k : Nat} {text : String} {s : σ}
    (h : lookup.Feeds maxPasses limit input start k text s) {j : Nat} (hj : j ≤ k) :
    ∃ text s, lookup.Feeds maxPasses limit input start j text s := by
  induction h with
  | first =>
    obtain rfl := Nat.le_zero.mp hj
    exact ⟨_, _, .first⟩
  | next hfed hgo ih =>
    obtain hj | rfl := Nat.le_succ_iff.mp hj
    · exact ih hj
    · exact ⟨_, _, hfed.next hgo⟩

/-- The pass after which a run does not go on is the last that is made. -/
theorem exists_iff_le {k : Nat} {text : String} {s : σ}
    (h : lookup.Feeds maxPasses limit input start k text s)
    (hlast : ¬GoesOn maxPasses limit k (pass lookup text s)) {j : Nat} :
    (∃ text s, lookup.Feeds maxPasses limit input start j text s) ↔ j ≤ k := by
  refine ⟨fun ⟨_, _, hj⟩ => ?_, h.exists_of_le⟩
  by_contra hlt
  obtain ⟨text', s', hnext⟩ := hj.exists_of_le (Nat.lt_of_not_le hlt)
  cases hnext with
  | next hfed hgo =>
    obtain ⟨rfl, rfl⟩ := h.unique hfed
    exact hlast hgo

end Lookup.Feeds

/-- A run makes any number of passes, or one before is its last. -/
theorem exists_last (lookup : Lookup σ) (maxPasses limit : Nat) (input : String) (start : σ)
    (k : Nat) :
    (∃ text s, lookup.Feeds maxPasses limit input start k text s) ∨
      ∃ j < k, ∃ text s, lookup.Feeds maxPasses limit input start j text s ∧
        ¬GoesOn maxPasses limit j (pass lookup text s) := by
  induction k with
  | zero => exact .inl ⟨input, start, .first⟩
  | succ k ih =>
    rcases ih with ⟨text, s, hfed⟩ | ⟨j, hj, hlast⟩
    · by_cases hgo : GoesOn maxPasses limit k (pass lookup text s)
      · exact .inl ⟨_, _, hfed.next hgo⟩
      · exact .inr ⟨k, Nat.lt_succ_self k, text, s, hfed, hgo⟩
    · exact .inr ⟨j, Nat.lt_succ_of_lt hj, hlast⟩

/-- A run ends with the first pass after which it does not go on. -/
theorem run_eq_some_iff {e : Expansion σ} :
    lookup.run maxPasses limit 0 input start = some e ↔
      ∃ k text s, lookup.Feeds maxPasses limit input start k text s ∧
        ¬GoesOn maxPasses limit k (pass lookup text s) ∧
        e = ending limit k (pass lookup text s) := by
  constructor
  · intro h
    refine Lookup.run.partial_correctness lookup maxPasses limit
      (fun passes text s e => lookup.Feeds maxPasses limit input start passes text s →
        ∃ k text s, lookup.Feeds maxPasses limit input start k text s ∧
          ¬GoesOn maxPasses limit k (pass lookup text s) ∧
          e = ending limit k (pass lookup text s)) ?_ 0 input start e h .first
    -- one pass: the run goes on after it, or it is the last
    intro rec ih passes text s e h hfed
    replace h := (verdict_eq passes (pass lookup text s) _).symm.trans h
    split_ifs at h with hgo
    · exact ih _ _ _ _ h (hfed.next hgo)
    · exact ⟨passes, text, s, hfed, hgo, (Option.some.inj h).symm⟩
  · rintro ⟨k, text, s, hfed, hlast, rfl⟩
    rw [hfed.run_eq, run_eq_ite]
    exact if_neg hlast

theorem ending_stop_ne_endless (limit passes : Nat) (last : Pass σ) :
    (ending limit passes last).stop ≠ .endless := by
  rw [ending]
  split_ifs <;> exact Stop.noConfusion

@[simp] theorem text_ending (limit passes : Nat) (last : Pass σ) :
    (ending limit passes last).text = last.text := by
  rw [ending]
  split_ifs <;> rfl

@[simp] theorem state_ending (limit passes : Nat) (last : Pass σ) :
    (ending limit passes last).state = last.state := by
  rw [ending]
  split_ifs <;> rfl

theorem ending_cases {passes : Nat} {last : Pass σ} (h : ¬GoesOn maxPasses limit passes last) :
    (ending limit passes last).stop = .settled ∧ last.replaced = false ∨
      (ending limit passes last).stop = .outgrown ∧ limit < last.text.utf8ByteSize ∨
      (ending limit passes last).stop = .passBound ∧ last.replaced = true ∧
        last.text.utf8ByteSize ≤ limit ∧ maxPasses ≠ 0 ∧ maxPasses ≤ passes + 1 := by
  rw [ending]
  split_ifs with hreplaced hlimit
  · exact .inl ⟨rfl, hreplaced⟩
  · exact .inr (.inl ⟨rfl, hlimit⟩)
  · rw [Bool.not_eq_false] at hreplaced
    rw [Nat.not_lt] at hlimit
    refine .inr (.inr ⟨rfl, hreplaced, hlimit, ?_⟩)
    by_contra hbound
    exact h ⟨hreplaced, hlimit, by omega⟩

/-- An expansion is endless where the run has no value, and only there. -/
theorem run_eq_some_iff_expand {e : Expansion σ} :
    lookup.run maxPasses (budget input) 0 input start = some e ↔
      expand lookup maxPasses input start = e ∧ e.stop ≠ .endless := by
  constructor
  · intro h
    obtain ⟨k, text, s, -, -, rfl⟩ := run_eq_some_iff.mp h
    exact ⟨expand_of_run h, ending_stop_ne_endless _ _ _⟩
  · rintro ⟨rfl, hstop⟩
    cases h : lookup.run maxPasses (budget input) 0 input start with
    | none =>
      rw [expand, h] at hstop
      exact absurd rfl hstop
    | some e => rw [expand_of_run h]

theorem expand_cases (h : (expand lookup maxPasses input start).stop ≠ .endless) :
    ∃ k text s, lookup.Feeds maxPasses (budget input) input start k text s ∧
      ¬GoesOn maxPasses (budget input) k (pass lookup text s) ∧
      expand lookup maxPasses input start = ending (budget input) k (pass lookup text s) :=
  run_eq_some_iff.mp (run_eq_some_iff_expand.mpr ⟨rfl, h⟩)

theorem expand_eq_ending {k : Nat} {text : String} {s : σ}
    (h : lookup.Feeds maxPasses (budget input) input start k text s)
    (hlast : ¬GoesOn maxPasses (budget input) k (pass lookup text s)) :
    expand lookup maxPasses input start = ending (budget input) k (pass lookup text s) :=
  (run_eq_some_iff_expand.mp (run_eq_some_iff.mpr ⟨k, text, s, h, hlast, rfl⟩)).1

theorem expand_of_endless (h : (expand lookup maxPasses input start).stop = .endless) :
    expand lookup maxPasses input start = ⟨input, 0, .endless, start⟩ := by
  cases hrun : lookup.run maxPasses (budget input) 0 input start with
  | none => rw [expand, hrun]; rfl
  | some e =>
    obtain ⟨rfl, hstop⟩ := run_eq_some_iff_expand.mp hrun
    exact absurd h hstop

/-! ## Lookups that answer alike -/

section
variable {τ : Type} {lookup' : Lookup τ} {R : σ → τ → Prop} {start' : τ}

/-- Two lookups that give the same answers in states that correspond, and go on to
states that correspond. -/
structure Lookup.Alike (lookup : Lookup σ) (lookup' : Lookup τ) (R : σ → τ → Prop) : Prop where
  answer : ∀ {s t}, R s t → ∀ name, (lookup name s).1 = (lookup' name t).1
  state : ∀ {s t}, R s t → ∀ name, R (lookup name s).2 (lookup' name t).2

/-- Two expansions that differ in the state of the lookup at most. -/
structure Expansion.Alike (R : σ → τ → Prop) (e : Expansion σ) (e' : Expansion τ) : Prop where
  text : e.text = e'.text
  passes : e.passes = e'.passes
  stop : e.stop = e'.stop
  state : R e.state e'.state

theorem Lookup.Alike.symm (h : Lookup.Alike lookup lookup' R) :
    Lookup.Alike lookup' lookup (fun t s => R s t) where
  answer hst name := (h.answer hst name).symm
  state hst name := h.state hst name

theorem askAll_alike (h : Lookup.Alike lookup lookup' R) (row : List String) {s : σ} {t : τ}
    (hst : R s t) :
    (askAll lookup row s).1 = (askAll lookup' row t).1 ∧
      R (askAll lookup row s).2 (askAll lookup' row t).2 := by
  induction row generalizing s t with
  | nil => exact ⟨rfl, hst⟩
  | cons name row ih =>
    obtain ⟨hanswers, hstates⟩ := ih (h.state hst name)
    exact ⟨by rw [askAll, askAll, h.answer hst, hanswers], hstates⟩

theorem pass_alike (h : Lookup.Alike lookup lookup' R) (text : String) {s : σ} {t : τ}
    (hst : R s t) :
    (pass lookup text s).text = (pass lookup' text t).text ∧
      (pass lookup text s).replaced = (pass lookup' text t).replaced ∧
      R (pass lookup text s).state (pass lookup' text t).state := by
  obtain ⟨hanswers, hstates⟩ := askAll_alike h (names (tokens text.toList).1) hst
  simp only [pass_eq_fill, hanswers]
  exact ⟨trivial, trivial, hstates⟩

theorem goesOn_congr {passes : Nat} {next : Pass σ} {next' : Pass τ}
    (htext : next.text = next'.text) (hreplaced : next.replaced = next'.replaced) :
    GoesOn maxPasses limit passes next ↔ GoesOn maxPasses limit passes next' := by
  rw [GoesOn, GoesOn, htext, hreplaced]

theorem ending_alike {passes : Nat} {last : Pass σ} {last' : Pass τ}
    (htext : last.text = last'.text) (hreplaced : last.replaced = last'.replaced)
    (hstate : R last.state last'.state) :
    Expansion.Alike R (ending limit passes last) (ending limit passes last') := by
  rw [ending, ending, htext, hreplaced]
  split_ifs <;> exact ⟨rfl, rfl, rfl, hstate⟩

theorem Lookup.Feeds.alike (h : Lookup.Alike lookup lookup' R) (hstart : R start start') {k : Nat}
    {text : String} {s : σ} (hfed : lookup.Feeds maxPasses limit input start k text s) :
    ∃ t, lookup'.Feeds maxPasses limit input start' k text t ∧ R s t := by
  induction hfed with
  | first => exact ⟨start', .first, hstart⟩
  | @next k text s _ hgo ih =>
    obtain ⟨t, hfed', hst⟩ := ih
    obtain ⟨htext, hreplaced, hstate⟩ := pass_alike h text hst
    rw [goesOn_congr htext hreplaced] at hgo
    rw [htext]
    exact ⟨_, hfed'.next hgo, hstate⟩

theorem expand_alike_of_stop (h : Lookup.Alike lookup lookup' R) (hstart : R start start')
    (hstop : (expand lookup maxPasses input start).stop ≠ .endless) :
    Expansion.Alike R (expand lookup maxPasses input start)
      (expand lookup' maxPasses input start') := by
  obtain ⟨k, text, s, hfed, hlast, he⟩ := expand_cases hstop
  obtain ⟨t, hfed', hst⟩ := hfed.alike h hstart
  obtain ⟨htext, hreplaced, hstate⟩ := pass_alike h text hst
  rw [goesOn_congr htext hreplaced] at hlast
  rw [he, expand_eq_ending hfed' hlast]
  exact ending_alike htext hreplaced hstate

/-- Lookups that answer alike make the same of a text, and neither comes to an end
where the other does not. -/
theorem expand_alike (h : Lookup.Alike lookup lookup' R) (hstart : R start start')
    (maxPasses : Nat) (input : String) :
    Expansion.Alike R (expand lookup maxPasses input start)
      (expand lookup' maxPasses input start') := by
  by_cases hstop : (expand lookup maxPasses input start).stop = .endless
  · by_cases hstop' : (expand lookup' maxPasses input start').stop = .endless
    · rw [expand_of_endless hstop, expand_of_endless hstop']
      exact ⟨rfl, rfl, rfl, hstart⟩
    · have hsame := (expand_alike_of_stop h.symm hstart hstop').stop
      exact absurd (hsame.trans hstop) hstop'
  · exact expand_alike_of_stop h hstart hstop

end

/-! ## A lookup that keeps its questions -/

theorem pass_recorded (text : String) (s : σ) (asked : List String) :
    pass (Lookup.recorded lookup) text (s, asked) =
      let next := pass lookup text s
      ⟨next.text, next.replaced, next.state, asked ++ names (tokens text.toList).1⟩ := by
  rw [pass_eq_fill, pass_eq_fill]
  simp only [askAll_recorded]

/-- An expansion without the questions that were kept. -/
def Expansion.plain (e : Expansion (σ × List String)) : Expansion σ :=
  ⟨e.text, e.passes, e.stop, e.state.1⟩

theorem alike_recorded (lookup : Lookup σ) :
    Lookup.Alike lookup (Lookup.recorded lookup) (fun s t => t.1 = s) where
  answer := by
    intro s t hst name
    rw [Lookup.recorded, hst]
  state := by
    intro s t hst name
    rw [Lookup.recorded, hst]

theorem expand_recorded (asked : List String) :
    expand lookup maxPasses input start =
      (expand (Lookup.recorded lookup) maxPasses input (start, asked)).plain := by
  have hstart : (start, asked).1 = start := rfl
  obtain ⟨htext, hpasses, hstop, hstate⟩ :=
    expand_alike (alike_recorded lookup) hstart maxPasses input
  rw [Expansion.plain, ← htext, ← hpasses, ← hstop, hstate]

end

end Phrasebook.Reference
