import Phrasebook.Proofs.Book.Announcement
import Phrasebook.Proofs.Book.Loading
import Phrasebook.Proofs.Reference.Bound

/-
  What the wording of a line asks for.

  A name is taken from the user's layer, else from the language's, and only else is
  the fallback asked. What it answers goes into the text, and is read by the next
  pass. So the questions of an expansion are fixed by its texts, and its texts by the
  answers to the questions before them.

  What is proved:
    1. `askAll_lookup` — the answers to a row of names, and the questions it leads to.
    2. `feeds_stage` — the texts that the passes of an expansion are given, and the
       questions before each.
    3. `alike_answering` — it does not matter that a fallback answers by what it was
       asked before: a handler with a state of its own does the same.
    4. `wording_trace` — answer, questions and the book afterwards, for a line.
-/

namespace Phrasebook

open Reference

/-! ## Handlers -/

/-- The lookup that answers from the user's layer, else from the language's, and else
asks a handler, if there is one. -/
def Layers.answering {σ : Type} (l : Layers) (handler : Option (Lookup σ)) : Lookup σ :=
  fun name s =>
    match l.user[name]?, l.language[name]?, handler with
    | some value, _, _ => (some value, s)
    | none, some value, _ => (some value, s)
    | none, none, some handler => handler name s
    | none, none, none => (none, s)

def afterAsking {σ : Type} (handler : Option (Lookup σ)) (asked : List String) (s : σ) : σ :=
  match handler with
  | some handler => (askAll handler asked s).2
  | none => s

namespace Fallback

/-- Whatever a fallback is asked from now on, it answers like the handler that is in
the given state. -/
def StandsFor {σ : Type} (fallback : Fallback) (handler : Lookup σ) (s : σ) : Prop :=
  ∀ (asked : List String) (name : String),
    fallback.answer (asked.reverse ++ fallback.asked) name =
      (handler name (askAll handler asked s).2).1

/-- There is no fallback and no handler, or the fallback stands for the handler in the
given state. -/
inductive StandIn {σ : Type} (s : σ) : Option Fallback → Option (Lookup σ) → Prop
  | none : StandIn s none none
  | some {fallback : Fallback} {handler : Lookup σ} (h : fallback.StandsFor handler s) :
    StandIn s (some fallback) (some handler)

def ofHandler {σ : Type} (handler : Lookup σ) (s : σ) : Fallback where
  answer before name := (handler name (askAll handler before.reverse s).2).1

theorem standsFor_ofHandler {σ : Type} (handler : Lookup σ) (s : σ) :
    (ofHandler handler s).StandsFor handler s := by
  intro asked name
  simp only [ofHandler, List.append_nil, List.reverse_reverse]

end Fallback

namespace Layers

/-- One layer with the texts of both, those of the user written over those of the
language. -/
def flat (l : Layers) (scope : Scope) : Layers :=
  ({} : Layers).merge scope (l.language.merge l.user)

theorem lookup_flat (l : Layers) (scope : Scope) (name : String) :
    (l.flat scope).lookup name = l.lookup name := by
  cases scope with
  | language =>
    simp only [lookup, flat, merge, Tags.getElem?_merge, Std.ExtTreeMap.getElem?_empty,
      Option.none_or, Option.or_none]
  | user =>
    simp only [lookup, flat, merge, Tags.getElem?_merge, Std.ExtTreeMap.getElem?_empty,
      Option.or_none]

theorem lookup_eq_none_iff {l : Layers} {name : String} :
    l.lookup name = none ↔ l.user[name]? = none ∧ l.language[name]? = none :=
  Option.or_eq_none_iff

section
variable {σ : Type} {l : Layers} {handler : Option (Lookup σ)} {name value : String}

theorem answering_of_some (h : l.lookup name = some value) (s : σ) :
    l.answering handler name s = (some value, s) := by
  rw [lookup, Option.or_eq_some_iff] at h
  obtain huser | ⟨huser, hlanguage⟩ := h
  · simp only [answering, huser]
  · simp only [answering, huser, hlanguage]

theorem answering_of_none (h : l.lookup name = none) (s : σ) :
    l.answering handler name s =
      match handler with
      | some handler => handler name s
      | none => (none, s) := by
  obtain ⟨huser, hlanguage⟩ := lookup_eq_none_iff.mp h
  cases handler <;> simp only [answering, huser, hlanguage]

end

end Layers

namespace Book

variable {b : Book} {line : String}

/-! ## A row of names -/

/-- The names of a row that the fallback is asked for: there is one, and neither layer
has a text. -/
def unknown (b : Book) (row : List String) : List String :=
  row.filter fun name => b.fallback.isSome && (b.tags.lookup name).isNone

/-- The answers to a row of names, `asked` being what the fallback has been asked
before, newest first. -/
def replies (b : Book) (asked row : List String) : List (Option String) :=
  row.mapIdx fun i name =>
    (b.tags.lookup name).or (b.fallback.bind fun fallback =>
      fallback.answer ((b.unknown (row.take i)).reverse ++ asked) name)

theorem unknown_append (row row' : List String) :
    b.unknown (row ++ row') = b.unknown row ++ b.unknown row' :=
  List.filter_append ..

theorem mem_unknown {row : List String} {name : String} :
    name ∈ b.unknown row ↔ name ∈ row ∧ b.fallback ≠ none ∧ b.tags.lookup name = none := by
  simp [unknown, Option.isSome_iff_ne_none]

/-- One name: its answer, and whether the fallback was asked for it. -/
theorem lookup_eq (b : Book) (name : String) (asked : List String) :
    b.lookup name asked =
      ((b.tags.lookup name).or (b.fallback.bind fun fallback => fallback.answer asked name),
        (b.unknown [name]).reverse ++ asked) := by
  rw [lookup, unknown]
  cases htag : b.tags.lookup name with
  | some value => simp [htag]
  | none => cases hfallback : b.fallback <;> simp [htag]

/-- A row of names is answered name by name, each after the questions for the names
before it. -/
theorem askAll_lookup (b : Book) (row asked : List String) :
    askAll b.lookup row asked = (b.replies asked row, (b.unknown row).reverse ++ asked) := by
  induction row generalizing asked with
  | nil => rfl
  | cons name row ih =>
    have hrow : b.unknown (name :: row) = b.unknown [name] ++ b.unknown row :=
      unknown_append [name] row
    have hbefore : ∀ i, (b.unknown ((name :: row).take (i + 1))).reverse ++ asked =
        (b.unknown (row.take i)).reverse ++ ((b.unknown [name]).reverse ++ asked) := by
      intro i
      have htake : b.unknown (name :: row.take i) = b.unknown [name] ++ b.unknown (row.take i) :=
        unknown_append [name] _
      rw [List.take_succ_cons, htake, List.reverse_append, List.append_assoc]
    rw [askAll, ih, lookup_eq, hrow, List.reverse_append, List.append_assoc, replies, replies,
      List.mapIdx_cons]
    simp only [hbefore]
    rfl

/-! ## The passes -/

/-- The text after a number of passes, and the questions that they have asked. -/
def stage (b : Book) (line : String) : Nat → String × List String
  | 0 => (line, [])
  | i + 1 =>
    let (text, asked) := b.stage line i
    let row := (tokens text.toList).1
    (String.ofList (fill row (b.replies (asked.reverse ++ b.questions) (names row)) ++
        (tokens text.toList).2.chars),
      asked ++ b.unknown (names row))

theorem stage_questions (b : Book) (line : String) (k : Nat) :
    (b.stage line k).2 = (List.range k).flatMap fun i =>
      b.unknown (names (tokens (b.stage line i).1.toList).1) := by
  induction k with
  | zero => rfl
  | succ k ih =>
    rw [List.range_succ, List.flatMap_append, List.flatMap_singleton, ← ih]
    rfl

theorem pass_stage (b : Book) (line : String) (i : Nat) :
    (pass b.lookup (b.stage line i).1 ((b.stage line i).2.reverse ++ b.questions)).text =
        (b.stage line (i + 1)).1 ∧
      (pass b.lookup (b.stage line i).1 ((b.stage line i).2.reverse ++ b.questions)).state =
        (b.stage line (i + 1)).2.reverse ++ b.questions := by
  simp only [pass_eq_fill, askAll_lookup, stage, List.reverse_append, List.append_assoc]
  exact ⟨trivial, trivial⟩

theorem feeds_stage {maxPasses limit k : Nat} {text : String} {asked : List String}
    (h : b.lookup.Feeds maxPasses limit line b.questions k text asked) :
    text = (b.stage line k).1 ∧ asked = (b.stage line k).2.reverse ++ b.questions := by
  induction h with
  | first => exact ⟨rfl, rfl⟩
  | @next k text asked _ _ ih =>
    obtain ⟨rfl, rfl⟩ := ih
    exact pass_stage b line k

theorem expand_stage (h : (b.expand line).stop ≠ .endless) :
    ∃ k, (∀ i text asked,
        b.lookup.Feeds b.maxPasses (budget line) line b.questions i text asked ↔
          i ≤ k ∧ text = (b.stage line i).1 ∧
            asked = (b.stage line i).2.reverse ++ b.questions) ∧
      (b.expand line).text = (b.stage line (k + 1)).1 ∧
      (b.expand line).state = (b.stage line (k + 1)).2.reverse ++ b.questions := by
  obtain ⟨k, text, asked, hfed, hlast, he⟩ := expand_cases h
  obtain ⟨htext, hasked⟩ := feeds_stage hfed
  refine ⟨k, ?_, ?_, ?_⟩
  · intro i text' asked'
    constructor
    · intro hfed'
      exact ⟨(hfed.exists_iff_le hlast).mp ⟨_, _, hfed'⟩, feeds_stage hfed'⟩
    · rintro ⟨hle, rfl, rfl⟩
      obtain ⟨text', asked', hfed'⟩ := (hfed.exists_iff_le hlast).mpr hle
      obtain ⟨rfl, rfl⟩ := feeds_stage hfed'
      exact hfed'
  · rw [expand, he, text_ending, htext, hasked]
    exact (pass_stage b line k).1
  · rw [expand, he, state_ending, htext, hasked]
    exact (pass_stage b line k).2

/-! ## Another handler -/

/-- One name, asked of the book and of the handler after the same questions. -/
theorem lookup_step {σ : Type} {handler : Option (Lookup σ)} {s : σ}
    (h : Fallback.StandIn s b.fallback handler) (row : List String) (name : String) :
    (b.lookup name (row.reverse ++ b.questions)).1 =
        (b.tags.answering handler name (afterAsking handler row s)).1 ∧
      ∃ row' : List String,
        (b.lookup name (row.reverse ++ b.questions)).2 = row'.reverse ++ b.questions ∧
        (b.tags.answering handler name (afterAsking handler row s)).2 =
          afterAsking handler row' s := by
  cases htag : b.tags.lookup name with
  | some value =>
    rw [Layers.answering_of_some htag, lookup, htag]
    exact ⟨rfl, row, rfl, rfl⟩
  | none =>
    rw [Layers.answering_of_none htag, lookup, htag, questions]
    generalize b.fallback = fallback at h
    cases h with
    | none => exact ⟨rfl, row, rfl, rfl⟩
    | some hstands =>
      refine ⟨hstands row name, row ++ [name], ?_, ?_⟩
      · rw [List.reverse_append]
        rfl
      · rw [afterAsking, afterAsking, askAll_append]
        rfl

theorem alike_answering {σ : Type} {handler : Option (Lookup σ)} {s : σ}
    (h : Fallback.StandIn s b.fallback handler) :
    Lookup.Alike b.lookup (b.tags.answering handler) fun asked t =>
      ∃ row : List String, asked = row.reverse ++ b.questions ∧ t = afterAsking handler row s where
  answer := by
    rintro _ _ ⟨row, rfl, rfl⟩ name
    exact (lookup_step h row name).1
  state := by
    rintro _ _ ⟨row, rfl, rfl⟩ name
    exact (lookup_step h row name).2

/-! ## A line -/

theorem remember_questions (b : Book) (asked : List String) :
    b.remember (asked.reverse ++ b.questions) =
      { b with fallback := b.fallback.map fun fallback =>
          { fallback with asked := asked.reverse ++ fallback.asked } } := by
  rw [remember, questions]
  cases b.fallback <;> rfl

/-- The wording of a line, by an expansion whose questions are known. -/
theorem resolve_of_state {asked : List String}
    (h : (b.expand line).state = asked.reverse ++ b.questions) :
    b.resolve line =
      ⟨(b.expand line).text,
        { b with fallback := b.fallback.map fun fallback =>
          { fallback with asked := asked.reverse ++ fallback.asked } },
        asked.map .asked ++ ((b.expand line).warning? line).toList.map .logged⟩ := by
  have hnews : ((asked.reverse ++ b.questions).take
      ((asked.reverse ++ b.questions).length - b.questions.length)).reverse = asked := by
    rw [List.length_append, Nat.add_sub_cancel, List.take_left, List.reverse_reverse]
  simp only [resolve, h, hnews, remember_questions]

theorem lookup_congr {b' : Book} (htags : ∀ name, b'.tags.lookup name = b.tags.lookup name)
    (hfallback : b'.fallback = b.fallback) : b'.lookup = b.lookup := by
  funext name asked
  rw [lookup_eq, lookup_eq, unknown, unknown, htags, hfallback]
  simp only [htags]

/-- Layers in which every name is found alike make no difference. -/
theorem resolve_congr {b' : Book} (htags : ∀ name, b'.tags.lookup name = b.tags.lookup name)
    (hmaxPasses : b'.maxPasses = b.maxPasses) (hfallback : b'.fallback = b.fallback)
    (line : String) :
    (b'.resolve line).answer = (b.resolve line).answer ∧
      (b'.resolve line).events = (b.resolve line).events := by
  have hquestions : b'.questions = b.questions := by rw [questions, questions, hfallback]
  have hexpand : b'.expand line = b.expand line := by
    rw [expand, expand, lookup_congr htags hfallback, hmaxPasses, hquestions]
  simp only [resolve, hexpand, hquestions]
  exact ⟨trivial, trivial⟩

theorem stop_ne_endless (hbound : b.maxPasses ≠ 0) (line : String) :
    (b.expand line).stop ≠ .endless := by
  obtain ⟨k, -, text, asked, -, -, he⟩ :=
    expand_cases_of_bound b.lookup line b.questions hbound
  rw [expand, he]
  exact ending_stop_ne_endless _ _ _

/-- The wording of a line whose expansion ends, `k` being its last pass. The passes are
given the stages: each is the one before with the text of the user in the place of a
name, else that of the language, else the answer of the fallback, and with the name
escaped where there is none. What the fallback is asked for is each reference, pass by
pass and from left to right, that neither layer has a text for, and be it an empty one.
The book remembers these questions and stays as it is in all else, and nobody is called.
A handler that the fallback stands for makes the same expansion and is left behind the
same questions. Nothing of the layers counts but what is found in them, so that one
layer will do. -/
theorem wording_trace (b : Book) (line : String) (h : (b.expand line).stop ≠ .endless) :
    (∃ k,
      (∀ i text asked,
        b.lookup.Feeds b.maxPasses (budget line) line b.questions i text asked ↔
          i ≤ k ∧ text = (b.stage line i).1 ∧
            asked = (b.stage line i).2.reverse ++ b.questions) ∧
      let asked := (List.range (k + 1)).flatMap fun i =>
        b.unknown (names (tokens (b.stage line i).1.toList).1)
      b.resolve line =
          ⟨(b.stage line (k + 1)).1,
            { b with fallback := b.fallback.map fun fallback =>
              { fallback with asked := asked.reverse ++ fallback.asked } },
            asked.map .asked ++ ((b.expand line).warning? line).toList.map .logged⟩ ∧
        ∀ (σ : Type) (handler : Option (Lookup σ)) (s : σ), Fallback.StandIn s b.fallback handler →
          let e := Reference.expand (b.tags.answering handler) b.maxPasses line s
          (b.resolve line).answer = e.text ∧ (b.expand line).passes = e.passes ∧
            (b.expand line).stop = e.stop ∧ e.state = afterAsking handler asked s) ∧
      (∀ name, .asked name ∈ (b.resolve line).events →
        b.tags.user[name]? = none ∧ b.tags.language[name]? = none) ∧
      calls (b.resolve line).events = [] ∧
      (∀ b' : Book, (∀ name, b'.tags.lookup name = b.tags.lookup name) →
        b'.maxPasses = b.maxPasses → b'.fallback = b.fallback →
          (b'.resolve line).answer = (b.resolve line).answer ∧
            (b'.resolve line).events = (b.resolve line).events) ∧
      ∀ scope,
        ({ b with tags := b.tags.flat scope }.resolve line).answer = (b.resolve line).answer ∧
          ({ b with tags := b.tags.flat scope }.resolve line).events =
            (b.resolve line).events := by
  obtain ⟨k, hpasses, htext, hstate⟩ := expand_stage h
  rw [stage_questions] at hstate
  have hresolve := resolve_of_state hstate
  refine ⟨⟨k, hpasses, ?turn, ?handler⟩, ?known, calls_resolve line,
    fun b' htags hmaxPasses hfallback => resolve_congr htags hmaxPasses hfallback line, ?flat⟩
  case turn => rw [hresolve, htext]
  case handler =>
    intro σ handler s hasks
    have hstart : ∃ row : List String,
        b.questions = row.reverse ++ b.questions ∧ s = afterAsking handler row s :=
      ⟨[], rfl, by cases handler <;> rfl⟩
    obtain ⟨htext', hpasses', hstop', row, hrow, hafter⟩ :=
      expand_alike (alike_answering hasks) hstart b.maxPasses line
    -- the questions behind the state of the handler are those of the book
    have hsame := List.append_cancel_right (hstate.symm.trans hrow)
    rw [List.reverse_inj] at hsame
    rw [hresolve]
    exact ⟨htext', hpasses', hstop', hsame ▸ hafter⟩
  case known =>
    intro name hname
    rw [hresolve] at hname
    simp only [List.mem_append, List.mem_map, Option.mem_toList] at hname
    obtain ⟨asked, hasked, heq⟩ | ⟨record, -, heq⟩ := hname
    · cases heq
      obtain ⟨i, -, hunknown⟩ := List.mem_flatMap.mp hasked
      exact Layers.lookup_eq_none_iff.mp (mem_unknown.mp hunknown).2.2
    · cases heq
  case flat =>
    intro scope
    have hsame : ∀ name, ({ b with tags := b.tags.flat scope } : Book).tags.lookup name =
        b.tags.lookup name := Layers.lookup_flat b.tags scope
    exact resolve_congr hsame rfl rfl line

/-- A handler that gives an answer once and declines from then on. -/
def grudging : Lookup Nat := fun _ n => (if n = 0 then some "#{b}#{x}" else none, n + 1)

/-- A book with a name for it in a text of the user's, and an empty text. -/
def curt : Book where
  tags := { user := Tags.ofPairs [("a", "#{x}")], language := Tags.ofPairs [("b", "")] }
  fallback := some (.ofHandler grudging 0)

/-- The answer of the second pass is read by the third, where the name in it is asked for
again and escaped. The book comes to the same as with the handler itself, and as with one
layer. -/
theorem wording_trace_curt :
    curt.stage "#{a} #{b}" 3 = ("##{x} ", ["x", "x"]) ∧
      (curt.expand "#{a} #{b}").stop ≠ .endless ∧
      Fallback.StandIn 0 curt.fallback (some grudging) ∧
      (curt.resolve "#{a} #{b}").answer =
        (Reference.expand (curt.tags.answering (some grudging)) curt.maxPasses "#{a} #{b}"
          0).text ∧
      ({ curt with tags := curt.tags.flat .user }.resolve "#{a} #{b}").answer =
        (curt.resolve "#{a} #{b}").answer := by
  have hstage : curt.stage "#{a} #{b}" 3 = ("##{x} ", ["x", "x"]) := by decide +kernel
  have hends : (curt.expand "#{a} #{b}").stop ≠ .endless := stop_ne_endless (by decide) _
  have hstands : Fallback.StandIn 0 curt.fallback (some grudging) :=
    .some (Fallback.standsFor_ofHandler grudging 0)
  obtain ⟨⟨k, -, -, hhandler⟩, -, -, -, hflat⟩ := wording_trace curt "#{a} #{b}" hends
  exact ⟨hstage, hends, hstands, (hhandler Nat (some grudging) 0 hstands).1, (hflat .user).1⟩

end Book

end Phrasebook
