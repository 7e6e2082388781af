import Phrasebook.Book.Action
import Phrasebook.Proofs.Reference.Escape

/-
  Repeated passes make the nested expansion.

  In a glossary no definition leads back to itself, every definition is a text
  that is read to its end, and no name in one holds a `#`. A text then has an
  expansion by recursion: each reference becomes the expansion of its
  definition, and each without a definition is escaped.

  What is proved:
    1. `expansion_step` — a pass leaves the expansion of a text as it is.
    2. `depth_step` — it takes one level off the nesting.
    3. `run_eq_expansion` — so the passes come to the expansion, one for each
       level and a last one that replaces nothing.
    4. `expand_eq_expansion` — the whole expansion of an input, within its
       limits, and that no later pass finds a question in it.
-/

namespace Phrasebook.Reference

/-- One name is in the definition of another and is itself defined. -/
def Refers (answer : String → Option String) (inner outer : String) : Prop :=
  ∃ value, answer outer = some value ∧ inner ∈ names (tokens value.toList).1 ∧
    (answer inner).isSome

/-- No name that a text asks for holds a `#`. -/
def HashFree (text : List Char) : Prop := ∀ name ∈ names (tokens text).1, '#' ∉ name.toList

theorem hashFree_of_names {text : List Char} {row : List String}
    (h : names (tokens text).1 = row) (hrow : ∀ name ∈ row, '#' ∉ name.toList) : HashFree text := by
  rw [HashFree, h]
  exact hrow

/-- Definitions that can be expanded to the end. -/
structure Glossary where
  answer : String → Option String
  closed : ∀ {name value}, answer name = some value → Closed value.toList
  hashFree : ∀ {name value}, answer name = some value → HashFree value.toList
  wellFounded : WellFounded (Refers answer)

def deepest (depths : List Nat) : Nat := depths.foldr max 0

theorem deepest_le_iff {depths : List Nat} {k : Nat} :
    deepest depths ≤ k ↔ ∀ d ∈ depths, d ≤ k := by
  induction depths with
  | nil => simp [deepest]
  | cons d depths ih =>
    rw [List.forall_mem_cons, ← ih]
    exact Nat.max_le

namespace Glossary
variable (g : Glossary)

def Mentions (inner outer : String) : Prop :=
  ∃ value, g.answer outer = some value ∧ inner ∈ names (tokens value.toList).1

theorem mentions_wellFounded : WellFounded g.Mentions := by
  refine ⟨fun outer => g.wellFounded.induction outer fun outer ih => ?_⟩
  -- a name without a definition mentions nothing, so it may be mentioned too
  refine Acc.intro outer fun inner ⟨value, hvalue, hinner⟩ => ?_
  cases hdefined : g.answer inner with
  | none => exact Acc.intro inner fun _ ⟨_, h, _⟩ => by rw [hdefined] at h; cases h
  | some _ => exact ih inner ⟨value, hvalue, hinner, by rw [hdefined]; rfl⟩

/-- What a reference to a name becomes in the end: its definition, with what
the references in that become, or the escaped reference. -/
def spell (name : String) : String :=
  match _h : g.answer name with
  | none => String.ofList (escaped name.toList)
  | some value =>
    let row := (tokens value.toList).1
    String.ofList (fill row ((names row).attach.map fun u => some (spell u.1)) ++
      (tokens value.toList).2.chars)
termination_by g.mentions_wellFounded.wrap name
decreasing_by exact ⟨value, _h, u.2⟩

def height (name : String) : Nat :=
  match h : g.answer name with
  | none => 0
  | some value =>
    deepest ((names (tokens value.toList).1).attach.map fun u => height u.1) + 1
termination_by g.mentions_wellFounded.wrap name
decreasing_by exact ⟨value, h, u.2⟩

def becomes : Token → List Char
  | .reference name => (g.spell (String.ofList name)).toList
  | t => t.chars

/-- A text with its references spelled out and all else as it stands. -/
def expansion (text : List Char) : List Char :=
  (tokens text).1.flatMap g.becomes ++ (tokens text).2.chars

/-- How deep the defined references of a text are nested. -/
def depth (text : List Char) : Nat := deepest ((names (tokens text).1).map g.height)

variable {g} {name : String} {text : List Char}

theorem put_spell : put (fun name => some (g.spell name)) = g.becomes := by
  funext t
  cases t <;> rfl

theorem spell_none (h : g.answer name = none) :
    g.spell name = String.ofList (escaped name.toList) := by
  rw [spell]
  split
  · rfl
  · next h' => rw [h] at h'; cases h'

theorem spell_some {value : String} (h : g.answer name = some value) :
    g.spell name = String.ofList (g.expansion value.toList) := by
  rw [spell]
  split
  · next h' => rw [h] at h'; cases h'
  · next h' =>
    rw [h] at h'
    cases h'
    rw [expansion, ← put_spell, ← fill_pure]
    simp only [List.map_attach_eq_pmap, List.pmap_eq_map]

theorem height_none (h : g.answer name = none) : g.height name = 0 := by
  rw [height]
  split
  · rfl
  · next h' => rw [h] at h'; cases h'

theorem height_some {value : String} (h : g.answer name = some value) :
    g.height name = g.depth value.toList + 1 := by
  rw [height]
  split
  · next h' => rw [h] at h'; cases h'
  · next h' =>
    rw [h] at h'
    cases h'
    rw [depth]
    simp only [List.map_attach_eq_pmap, List.pmap_eq_map]

/-! ## What a pass puts in the place of a token -/

/-- A token that is no reference stays, a reference without a definition is
escaped, and one with a definition gives way to it. -/
theorem put_cases (h : HashFree text) {t : Token} (ht : t ∈ (tokens text).1) :
    (names [t] = [] ∧ t.Proper ∧ put g.answer t = t.chars) ∨
      (∃ name, t = .reference name.toList ∧ '}' ∉ name.toList ∧ Shut name.toList ∧
        g.answer name = none ∧ put g.answer t = escaped name.toList) ∨
      ∃ name value, t = .reference name.toList ∧ g.answer name = some value ∧
        put g.answer t = value.toList := by
  have hp := proper_tokens _ _ ht
  cases t with
  | plain c => exact .inl ⟨rfl, hp, rfl⟩
  | pair c => exact .inl ⟨rfl, hp, rfl⟩
  | reference name =>
    obtain ⟨name, rfl⟩ : ∃ n : String, n.toList = name := ⟨String.ofList name, String.toList_ofList⟩
    rw [put, String.ofList_toList]
    cases hanswer : g.answer name with
    | none =>
      have hshut := shut_of_no_hash (h _ (mem_names_iff.mpr ht))
      exact .inr (.inl ⟨name, rfl, hp, hshut, hanswer, rfl⟩)
    | some value => exact .inr (.inr ⟨name, value, rfl, hanswer, rfl⟩)

theorem closed_put (h : HashFree text) {t : Token} (ht : t ∈ (tokens text).1) :
    Closed (put g.answer t) := by
  rcases put_cases (g := g) h ht with ⟨-, hp, hput⟩ | ⟨name, -, hname, -, -, hput⟩ |
    ⟨name, value, -, hanswer, hput⟩
  · rw [hput]
    exact closed_token hp
  · rw [hput]
    exact closed_escaped hname
  · rw [hput]
    exact g.closed hanswer

/-- What is put in the place of a token asks for what its definition asks for. -/
theorem mem_names_put (h : HashFree text) {t : Token} (ht : t ∈ (tokens text).1) (u : String) :
    u ∈ names (tokens (put g.answer t)).1 ↔ ∃ n ∈ names [t], g.Mentions u n := by
  rcases put_cases (g := g) h ht with ⟨hnames, hp, hput⟩ |
    ⟨name, rfl, hname, hshut, hanswer, hput⟩ |
    ⟨name, value, rfl, hanswer, hput⟩
  · rw [hput, tokens_token hp, hnames]
    simp
  · rw [hput, names_escaped hname, hshut]
    simp [Mentions, hanswer]
  · rw [hput]
    simp [Mentions, hanswer]

theorem spell_put (h : HashFree text) {t : Token} (ht : t ∈ (tokens text).1) :
    (tokens (put g.answer t)).1.flatMap g.becomes = g.becomes t := by
  rcases put_cases (g := g) h ht with ⟨hnames, hp, hput⟩ |
    ⟨name, rfl, hname, hshut, hanswer, hput⟩ |
    ⟨name, value, rfl, hanswer, hput⟩
  · rw [hput, tokens_token hp]
    exact List.flatMap_singleton _ t
  · have hnames : names (tokens (escaped name.toList)).1 = [] := by
      rw [names_escaped hname, hshut]
      rfl
    rw [hput, ← put_spell, flatMap_put hnames, written_tokens_of_closed (closed_escaped hname),
      put_spell, becomes, String.ofList_toList, spell_none hanswer, String.toList_ofList]
  · have hvalue := g.closed hanswer
    rw [hput, becomes, String.ofList_toList, spell_some hanswer, String.toList_ofList, expansion,
      hvalue, Tail.chars, List.append_nil]

/-! ## One pass -/

/-- After a pass a text asks for what the definitions of its names mention. -/
theorem mem_names_step (h : HashFree text) (u : String) :
    u ∈ names (tokens (step g.answer text)).1 ↔
      ∃ n ∈ names (tokens text).1, g.Mentions u n := by
  exact mem_names_step_iff (fun n u => g.Mentions u n) (fun t => closed_put h)
    (fun t => mem_names_put h) u

theorem hashFree_step (h : HashFree text) : HashFree (step g.answer text) := by
  intro u hu
  obtain ⟨n, -, value, hvalue, hu⟩ := (mem_names_step h u).mp hu
  exact g.hashFree hvalue u hu

theorem expansion_step (h : HashFree text) :
    g.expansion (step g.answer text) = g.expansion text := by
  have hspell := List.flatMap_congr fun t ht => spell_put (g := g) h ht
  calc g.expansion (step g.answer text)
      = ((tokens text).1.flatMap fun t => (tokens (put g.answer t)).1).flatMap g.becomes ++
          (tokens text).2.chars := by rw [expansion, tokens_step fun t => closed_put h]
    _ = ((tokens text).1.flatMap fun t => (tokens (put g.answer t)).1.flatMap g.becomes) ++
          (tokens text).2.chars := by rw [List.flatMap_assoc]
    _ = g.expansion text := by rw [hspell, expansion]

theorem height_le_succ_iff {k : Nat} :
    g.height name ≤ k + 1 ↔ ∀ u, g.Mentions u name → g.height u ≤ k := by
  cases hanswer : g.answer name with
  | none => simp [height_none hanswer, Mentions, hanswer]
  | some value =>
    rw [height_some hanswer, Nat.add_le_add_iff_right, depth, deepest_le_iff, List.forall_mem_map]
    simp [Mentions, hanswer]

theorem depth_le_iff {k : Nat} :
    g.depth text ≤ k ↔ ∀ n ∈ names (tokens text).1, g.height n ≤ k := by
  rw [depth, deepest_le_iff, List.forall_mem_map]

theorem depth_step_le_iff (h : HashFree text) {k : Nat} :
    g.depth (step g.answer text) ≤ k ↔ g.depth text ≤ k + 1 := by
  simp only [depth_le_iff, height_le_succ_iff, mem_names_step h]
  constructor
  · intro hle n hn u hu
    exact hle u ⟨n, hn, hu⟩
  · rintro hle u ⟨n, hn, hu⟩
    exact hle n hn u hu

theorem depth_step (h : HashFree text) : g.depth (step g.answer text) = g.depth text - 1 := by
  refine Nat.le_antisymm ?_ ?_
  · rw [depth_step_le_iff h]
    omega
  · have := (depth_step_le_iff (g := g) h).mp (Nat.le_refl _)
    omega

theorem height_eq_zero_iff : g.height name = 0 ↔ g.answer name = none := by
  constructor
  · intro h
    cases hanswer : g.answer name with
    | none => rfl
    | some value => rw [height_some hanswer] at h; cases h
  · exact height_none

/-- A pass replaces something as long as there is a level left. -/
theorem answered_iff : Answered g.answer text = true ↔ 0 < g.depth text := by
  rw [← not_iff_not, Nat.not_lt, depth_le_iff, Bool.not_eq_true, Answered, List.any_eq_false]
  simp only [Nat.le_zero, height_eq_zero_iff, Option.not_isSome_iff_eq_none]

theorem step_of_depth_zero (h : g.depth text = 0) : step g.answer text = g.expansion text := by
  have hnone := depth_le_iff.mp (Nat.le_of_eq h)
  -- only references without a definition are left, and these are escaped
  have hput : ∀ t ∈ (tokens text).1, put g.answer t = g.becomes t := by
    intro t ht
    cases t with
    | plain c => rfl
    | pair c => rfl
    | reference name =>
      have hmem : String.ofList name ∈ names (tokens text).1 := by
        rw [mem_names_iff, String.toList_ofList]
        exact ht
      have hanswer := height_eq_zero_iff.mp (Nat.le_zero.mp (hnone _ hmem))
      rw [put, hanswer, becomes, spell_none hanswer, filled, String.toList_ofList,
        String.toList_ofList]
  rw [expansion, step, List.flatMap_congr hput]

theorem names_expansion (h : HashFree text) : names (tokens (g.expansion text)).1 = [] := by
  -- on the levels: a pass takes one off and leaves the expansion as it is
  induction hd : g.depth text generalizing text with
  | zero =>
    have hnone := depth_le_iff.mp (Nat.le_of_eq hd)
    rw [← step_of_depth_zero hd, List.eq_nil_iff_forall_not_mem]
    intro u hu
    obtain ⟨n, hn, value, hvalue, -⟩ := (mem_names_step h u).mp hu
    have := height_eq_zero_iff.mp (Nat.le_zero.mp (hnone n hn))
    rw [this] at hvalue
    cases hvalue
  | succ d ih =>
    rw [← expansion_step h]
    exact ih (hashFree_step h) (by rw [depth_step h, hd]; rfl)

/-! ## All passes -/

theorem pass_replaced (text : String) :
    (pass (Lookup.pure g.answer) text ()).replaced = decide (0 < g.depth text.toList) := by
  have h : Answered g.answer text.toList = decide (0 < g.depth text.toList) := by
    rw [Bool.eq_iff_iff, decide_eq_true_iff, answered_iff]
  rw [pass_pure, h]

theorem depth_textAfter {i : Nat} {text : String} (h : HashFree text.toList) :
    g.depth (textAfter g.answer i text).toList = g.depth text.toList - i := by
  induction i generalizing text with
  | zero => rfl
  | succ i ih =>
    rw [textAfter_succ, ih, String.toList_ofList, depth_step h]
    · omega
    · rw [String.toList_ofList]
      exact hashFree_step h

theorem textAfter_depth_succ {text : String} (h : HashFree text.toList) :
    textAfter g.answer (g.depth text.toList + 1) text =
      String.ofList (g.expansion text.toList) := by
  induction hd : g.depth text.toList generalizing text with
  | zero => rw [textAfter_succ, step_of_depth_zero hd, textAfter]
  | succ d ih =>
    have := @ih (String.ofList (step g.answer text.toList))
    rw [String.toList_ofList, depth_step h, hd, expansion_step h] at this
    rw [textAfter_succ, this (hashFree_step h) rfl]

/-- With room for every level, the passes come to the expansion. -/
theorem run_eq_expansion {maxPasses limit : Nat} (passes : Nat) {text : String}
    (h : HashFree text.toList)
    (hlimit : ∀ i, 1 ≤ i → i ≤ g.depth text.toList →
      (textAfter g.answer i text).utf8ByteSize ≤ limit)
    (hbound : maxPasses = 0 ∨ passes + g.depth text.toList < maxPasses) :
    (Lookup.pure g.answer).run maxPasses limit passes text () =
      some ⟨String.ofList (g.expansion text.toList), passes + g.depth text.toList, .settled,
        ()⟩ := by
  -- on the levels left, the passes made before counting as many as were taken off
  induction hd : g.depth text.toList generalizing passes text with
  | zero =>
    have hreplaced := pass_replaced (g := g) text
    rw [hd] at hreplaced
    rw [run_settled passes hreplaced, pass_pure, step_of_depth_zero hd, Nat.add_zero]
  | succ d ih =>
    have hreplaced := pass_replaced (g := g) text
    have hsize := hlimit 1 (Nat.le_refl 1) (by omega)
    rw [hd, decide_eq_true (Nat.succ_pos d)] at hreplaced
    have hdepth := depth_step (g := g) h
    rw [run_next passes hreplaced hsize (by omega), pass_pure]
    have := @ih (passes + 1) (String.ofList (step g.answer text.toList))
    rw [String.toList_ofList, hdepth, hd, expansion_step h] at this
    rw [this (hashFree_step h) _ _ rfl]
    · congr 2
      omega
    · intro i h1 hi
      rw [← textAfter_succ]
      exact hlimit (i + 1) (by omega) (by omega)
    · omega

/-- An input whose names hold no `#` is expanded to the text that the
recursion over its glossary gives, if the bound on the passes and the size
leave room for all levels: one pass for each, and a last one that replaces
nothing. No pass over the result has a question to ask. -/
theorem expand_eq_expansion (g : Glossary) (input : String) (maxPasses : Nat)
    (h : HashFree input.toList)
    (hbound : maxPasses = 0 ∨ g.depth input.toList < maxPasses)
    (hbudget : ∀ i, 1 ≤ i → i ≤ g.depth input.toList →
      (textAfter g.answer i input).utf8ByteSize ≤ budget input) :
    let result := String.ofList (g.expansion input.toList)
    let e := expand (Lookup.pure g.answer) maxPasses input ()
    e = ⟨result, g.depth input.toList, .settled, ()⟩ ∧
      e.warning? input = none ∧
      textAfter g.answer (g.depth input.toList + 1) input = result ∧
      (∀ i ≤ g.depth input.toList,
        (pass (Lookup.pure g.answer) (textAfter g.answer i input) ()).replaced =
          decide (i < g.depth input.toList)) ∧
      names (tokens result.toList).1 = [] ∧
      ∀ (σ : Type) (lookup : Lookup σ) (s : σ), pass lookup result s = ⟨result, false, s⟩ := by
  intro result e
  have hrun := run_eq_expansion 0 h hbudget (by rwa [Nat.zero_add])
  have he : e = ⟨result, g.depth input.toList, .settled, ()⟩ := by
    rw [Nat.zero_add] at hrun
    exact expand_of_run hrun
  have hnames : names (tokens result.toList).1 = [] := by
    rw [String.toList_ofList]
    exact names_expansion h
  refine ⟨he, ?_, textAfter_depth_succ h, ?_, hnames, ?_⟩
  · rw [he]
    rfl
  · intro i hi
    rw [pass_replaced, depth_textAfter h, decide_eq_decide]
    omega
  · intro σ lookup s
    exact pass_of_names_nil lookup hnames s

def greeting (name : String) : Option String :=
  if name = "greeting" then some "Hello #{who}#{mark}"
  else if name = "who" then some "world#1"
  else none

def greetings : Glossary where
  answer := greeting
  closed h := by
    unfold greeting at h
    split_ifs at h <;> cases h <;> cbv
  hashFree h := by
    unfold greeting at h
    split_ifs at h <;> cases h
    · exact hashFree_of_names (by cbv : _ = ["who", "mark"]) (by decide)
    · exact hashFree_of_names (by cbv : _ = []) (by decide)
  wellFounded := by
    let rank (name : String) : Nat := if name = "greeting" then 1 else 0
    refine Subrelation.wf ?_ (InvImage.wf rank Nat.lt_wfRel.wf)
    rintro inner outer ⟨value, hvalue, hinner, -⟩
    unfold greeting at hvalue
    split_ifs at hvalue with hgreeting <;> cases hvalue
    · have hnames : names (tokens "Hello #{who}#{mark}".toList).1 = ["who", "mark"] := by cbv
      rw [hnames] at hinner
      obtain rfl | rfl : inner = "who" ∨ inner = "mark" := by simpa using hinner
      all_goals
        subst hgreeting
        change rank _ < rank _
        decide
    · have hnames : names (tokens "world#1".toList).1 = [] := by cbv
      rw [hnames] at hinner
      cases hinner

theorem expand_greetings :
    let input := "#{greeting}! #{n}#\x7b"
    HashFree input.toList ∧ greetings.depth input.toList < 3 ∧
      (∀ i, 1 ≤ i → i ≤ greetings.depth input.toList →
        (textAfter greetings.answer i input).utf8ByteSize ≤ budget input) ∧
      expand (Lookup.pure greetings.answer) 3 input () =
        ⟨"Hello world#1##{mark}! ##{n}#\x7b", 2, .settled, ()⟩ := by
  intro input
  have h : HashFree input.toList := hashFree_of_names (by cbv : _ = ["greeting", "n"]) (by decide)
  have hdepth : greetings.depth input.toList = 2 := by cbv
  have hresult : greetings.expansion input.toList = "Hello world#1##{mark}! ##{n}#\x7b".toList := by
    cbv
  have hbudget : ∀ i, 1 ≤ i → i ≤ greetings.depth input.toList →
      (textAfter greetings.answer i input).utf8ByteSize ≤ budget input := by
    rw [hdepth]
    intro i h1 h2
    have hfirst : textAfter greetings.answer 1 input = "Hello #{who}#{mark}! ##{n}#\x7b" := by cbv
    have hsecond : textAfter greetings.answer 2 input = "Hello world#1##{mark}! ##{n}#\x7b" := by
      cbv
    obtain rfl | rfl : i = 1 ∨ i = 2 := by omega
    · rw [hfirst]; decide
    · rw [hsecond]; decide
  have := (greetings.expand_eq_expansion input 3 h (.inr (by rw [hdepth]; decide)) hbudget).1
  rw [hdepth, hresult] at this
  exact ⟨h, by rw [hdepth]; decide, hbudget, this⟩

end Glossary

end Phrasebook.Reference
