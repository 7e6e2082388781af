import Phrasebook.Proofs.Book.Synced
import Phrasebook.Proofs.Latest

/-
  Registration documents say what they declare by order alone.

  A document is read level by level: under the root the `Language` elements, in them
  the `Info` elements, in them the `Source` elements, and all else is skipped. What
  has been read so far is a state, and an element carries it on. So a row of elements
  may be rewritten wherever no step can tell the difference: at every level elements of
  another name come and go, an element is split in two, one that declares nothing is
  dropped, and rows further down are rewritten in the same way.

  What is proved:
    1. `Level.run_eq_of_eqvGen` — a step that is blind to the changes of a level comes
       to the same end over a row and over the row rewritten.
    2. `sources_blind`, `infos_blind`, `languages_blind` — the step at each of the three
       levels is blind.
    3. `ofElement_written` — what can be declared is read back once it is written out.
    4. `grouping_ignored` — all this for whole documents, and which preference counts.
-/

namespace Phrasebook

open Markup

namespace Registration

/-! ## Levels -/

/-- A level of a document: the elements that are read there, which attributes the
second part of such an element may have if the first has others, which elements
declare nothing, and how the children of one may be rewritten. -/
structure Level where
  name : String
  continues : List (String × String) → List (String × String) → Prop
  idle : Element → Prop
  within : List Element → List Element → Prop

/-- One change of a row of elements at a level. -/
inductive Level.Edit (level : Level) : List Element → List Element → Prop
  | insert (before after : List Element) {e : Element} (h : e.name ≠ level.name) :
    Edit level (before ++ after) (before ++ e :: after)
  | drop (before after : List Element) {e : Element} (h : level.idle e) :
    Edit level (before ++ e :: after) (before ++ after)
  | split (before after : List Element) {attributes attributes' : List (String × String)}
    (h : level.continues attributes attributes') (children children' : List Element)
    (content content' content'' : String) :
    Edit level (before ++ ⟨level.name, attributes, children ++ children', content⟩ :: after)
      (before ++ ⟨level.name, attributes, children, content'⟩ ::
        ⟨level.name, attributes', children', content''⟩ :: after)
  | inside (before after : List Element) {children children' : List Element}
    (h : level.within children children') (attributes : List (String × String))
    (content : String) :
    Edit level (before ++ ⟨level.name, attributes, children, content⟩ :: after)
      (before ++ ⟨level.name, attributes, children', content⟩ :: after)

/-- The files of an `Info`. Only their names are read, so that anything may stand in
them. -/
def sources : Level where
  name := "Source"
  continues _ _ := False
  idle _ := False
  within _ _ := True

def infos : Level where
  name := "Info"
  continues first second := second = first
  idle info := info.named "Source" = []
  within := sources.Edit

def languages : Level where
  name := "Language"
  continues first second := second = first ∨ second = []
  idle language :=
    language.attribute? "default" = none ∧
      ∀ info ∈ language.named "Info", info.named "Source" = []
  within := infos.Edit

/-- A step over the elements of a level that the changes there do not show in. -/
structure Level.Blind {σ : Type} (level : Level) (step : σ → Element → σ) : Prop where
  idle : ∀ (s : σ) (e : Element), level.idle e → step s e = s
  split : ∀ (s : σ) (attributes attributes' : List (String × String)),
    level.continues attributes attributes' →
      ∀ (children children' : List Element) (content content' content'' : String),
        step s ⟨level.name, attributes, children ++ children', content⟩ =
          step (step s ⟨level.name, attributes, children, content'⟩)
            ⟨level.name, attributes', children', content''⟩
  inside : ∀ (s : σ) (children children' : List Element), level.within children children' →
    ∀ (attributes : List (String × String)) (content : String),
      step s ⟨level.name, attributes, children, content⟩ =
        step s ⟨level.name, attributes, children', content⟩

section
variable {σ : Type} {level : Level} {step : σ → Element → σ} {elements elements' : List Element}

/-- The state after a row of elements, read at a level. -/
def Level.run (level : Level) (step : σ → Element → σ) (s : σ) (elements : List Element) : σ :=
  (elements.filter (·.name == level.name)).foldl step s

namespace Level

theorem run_append (s : σ) (elements elements' : List Element) :
    level.run step s (elements ++ elements') =
      level.run step (level.run step s elements) elements' := by
  rw [run, List.filter_append, List.foldl_append]
  rfl

theorem run_cons_of_eq {e : Element} (h : e.name = level.name) (s : σ)
    (elements : List Element) :
    level.run step s (e :: elements) = level.run step (step s e) elements := by
  have hread : (e.name == level.name) = true := beq_iff_eq.mpr h
  simp only [run, List.filter_cons, hread, if_true, List.foldl_cons]

theorem run_cons_of_ne {e : Element} (h : e.name ≠ level.name) (s : σ)
    (elements : List Element) : level.run step s (e :: elements) = level.run step s elements := by
  have hskipped : (e.name == level.name) = false := beq_eq_false_iff_ne.mpr h
  simp only [run, List.filter_cons, hskipped, Bool.false_eq_true, if_false]

/-- One change of a row does not show in where a blind step comes to. -/
theorem Edit.run_eq (hblind : level.Blind step) (h : level.Edit elements elements') (s : σ) :
    level.run step s elements = level.run step s elements' := by
  -- before the change the rows are the same, and so is the state that it is met in
  cases h with
  | insert before after hname => rw [run_append, run_append, run_cons_of_ne hname]
  | @drop before after e hidle =>
    rw [run_append, run_append]
    by_cases hname : e.name = level.name
    · rw [run_cons_of_eq hname, hblind.idle _ _ hidle]
    · rw [run_cons_of_ne hname]
  | split before after hcontinues children children' content content' content'' =>
    rw [run_append, run_append, run_cons_of_eq rfl, run_cons_of_eq rfl, run_cons_of_eq rfl,
      hblind.split _ _ _ hcontinues]
  | inside before after hwithin attributes content =>
    rw [run_append, run_append, run_cons_of_eq rfl, run_cons_of_eq rfl,
      hblind.inside _ _ _ hwithin]

/-- Nor do any number of changes, made or taken back. -/
theorem run_eq_of_eqvGen (hblind : level.Blind step)
    (h : Relation.EqvGen level.Edit elements elements') (s : σ) :
    level.run step s elements = level.run step s elements' := by
  induction h with
  | rel _ _ hedit => exact hedit.run_eq hblind s
  | refl _ => rfl
  | symm _ _ _ ih => exact ih.symm
  | trans _ _ _ _ _ ih ih' => exact ih.trans ih'

end Level

end

/-! ## The three levels -/

theorem infoEntries_eq_run (info : Element) :
    infoEntries info =
      sources.run (fun entries source =>
        entries ++ [Entry.under ((info.attribute? "name").getD "") source.content]) []
        info.children := by
  rw [infoEntries, List.map_eq_flatMap, List.flatMap_eq_foldl]
  rfl

theorem sources_blind (name : String) :
    sources.Blind fun (entries : List Entry) source =>
      entries ++ [Entry.under name source.content] where
  idle _ _ h := h.elim
  split _ _ _ h := h.elim
  inside _ _ _ _ _ _ := rfl

theorem languageEntries_eq_run (language : Element) :
    languageEntries language =
      infos.run (fun entries info => entries ++ infoEntries info) [] language.children := by
  rw [languageEntries, List.flatMap_eq_foldl]
  rfl

theorem infos_blind : infos.Blind fun entries info => entries ++ infoEntries info where
  idle entries info h := by
    change info.named "Source" = [] at h
    rw [infoEntries, h, List.map_nil, List.append_nil]
  split entries attributes attributes' h children children' content content' content'' := by
    cases h
    rw [List.append_assoc]
    congr 1
    simp only [infoEntries, Element.named, List.filter_append, List.map_append]
    rfl
  inside entries children children' h attributes content := by
    rw [infoEntries_eq_run, infoEntries_eq_run]
    exact congrArg (entries ++ ·) (Level.Edit.run_eq (sources_blind _) h [])

/-- What is declared once a `Language` element has been read as well. -/
def add (declared : Registration) (language : Element) : Registration where
  entries := declared.entries ++ languageEntries language
  preferred := prefer declared.preferred language

theorem foldl_add (declared : Registration) (elements : List Element) :
    elements.foldl add declared =
      ⟨declared.entries ++ elements.flatMap languageEntries,
        elements.foldl prefer declared.preferred⟩ := by
  induction elements generalizing declared with
  | nil => rw [List.flatMap_nil, List.append_nil]; rfl
  | cons language elements ih =>
    rw [List.foldl_cons, ih, add, List.flatMap_cons, List.append_assoc]
    rfl

theorem ofElement_eq_run (root : Element) : ofElement root = languages.run add {} root.children :=
  (foldl_add {} _).symm

theorem languages_blind : languages.Blind add where
  idle declared language h := by
    obtain ⟨hdefault, hsources⟩ := h
    have hentries : languageEntries language = [] := by
      rw [languageEntries, List.flatMap_eq_nil_iff]
      intro info hinfo
      rw [infoEntries, hsources info hinfo]
      rfl
    rw [add, hentries, prefer, hdefault, List.append_nil]
  split declared attributes attributes' h children children' content content' content'' := by
    have hentries : languageEntries ⟨"Language", attributes, children ++ children', content⟩ =
        languageEntries ⟨"Language", attributes, children, content'⟩ ++
          languageEntries ⟨"Language", attributes', children', content''⟩ := by
      simp only [languageEntries, Element.named, List.filter_append, List.flatMap_append]
    have hprefer :
        prefer declared.preferred ⟨"Language", attributes, children ++ children', content⟩ =
          prefer (prefer declared.preferred ⟨"Language", attributes, children, content'⟩)
            ⟨"Language", attributes', children', content''⟩ := by
      -- the second part says the same over again, or nothing
      cases h with
      | inl hsame =>
        subst hsame
        simp only [prefer, Element.attribute?]
        cases attributes'.lookup "default" <;> rfl
      | inr hnone =>
        subst hnone
        rfl
    simp only [add]
    rw [List.append_assoc]
    exact congr (congrArg Registration.mk (congrArg (declared.entries ++ ·) hentries)) hprefer
  inside declared children children' h attributes content := by
    have hentries : languageEntries ⟨"Language", attributes, children, content⟩ =
        languageEntries ⟨"Language", attributes, children', content⟩ := by
      rw [languageEntries_eq_run, languageEntries_eq_run]
      exact Level.Edit.run_eq infos_blind h []
    exact congrArg (Registration.mk · _) (congrArg (declared.entries ++ ·) hentries)

/-! ## What can be declared -/

def Entry.element : Entry → Element
  | .user file => ⟨"Language", [], [⟨"Info", [], [⟨"Source", [], [], file⟩], ""⟩], ""⟩
  | .pack language file =>
    ⟨"Language", [], [⟨"Info", [("name", language)], [⟨"Source", [], [], file⟩], ""⟩], ""⟩

def preferring : Option String → List Element
  | none => []
  | some name => [⟨"Language", [("default", name)], [], ""⟩]

/-- A declaration written out: each file in a `Language` of its own, and the preference
at the end. -/
def written (declared : Registration) : List Element :=
  declared.entries.map Entry.element ++ preferring declared.preferred

/-- What can be declared at all: a file belongs to the user or to a language with a
name, and the empty name is not preferred. -/
structure Declarable (declared : Registration) : Prop where
  entries : ∀ entry ∈ declared.entries, entry.Named
  preferred : declared.preferred ≠ some ""

theorem declarable_ofElement (root : Element) : (ofElement root).Declarable where
  entries _ := named_of_mem_ofElement
  preferred := by
    rw [ofElement]
    induction root.named "Language" using List.reverseRecOn with
    | nil => nofun
    | append_singleton languages language ih =>
      rw [List.foldl_concat, prefer]
      split
      · exact ih
      · next name _ =>
        split
        · nofun
        · next hname => simpa using hname

theorem add_element {entry : Entry} (h : entry.Named) (declared : Registration) :
    declared.add entry.element = ⟨declared.entries ++ [entry], declared.preferred⟩ := by
  cases entry with
  | user file => rfl
  | pack language file =>
    have hentry : languageEntries (Entry.element (.pack language file)) =
        [Entry.under language file] := rfl
    rw [add, hentry, Entry.under, if_neg h]
    rfl

theorem run_map_element {entries : List Entry} (h : ∀ entry ∈ entries, entry.Named)
    (declared : Registration) :
    languages.run add declared (entries.map Entry.element) =
      ⟨declared.entries ++ entries, declared.preferred⟩ := by
  induction entries generalizing declared with
  | nil => rw [List.append_nil]; rfl
  | cons entry entries ih =>
    obtain ⟨hentry, hentries⟩ := List.forall_mem_cons.mp h
    have hname : entry.element.name = languages.name := by cases entry <;> rfl
    rw [List.map_cons, Level.run_cons_of_eq hname, add_element hentry, ih hentries,
      List.append_assoc]
    rfl

theorem ofElement_written {declared : Registration} (h : declared.Declarable) (name : String)
    (attributes : List (String × String)) (content : String) :
    ofElement ⟨name, attributes, declared.written, content⟩ = declared := by
  obtain ⟨entries, preferred⟩ := declared
  rw [ofElement_eq_run, written, Level.run_append, run_map_element h.entries]
  cases preferred with
  | none => rfl
  | some language =>
    have hlanguage : language ≠ "" := fun hempty => h.preferred (congrArg some hempty)
    change add ⟨entries, none⟩ ⟨"Language", [("default", language)], [], ""⟩ = _
    have hdefault : Element.attribute? ⟨"Language", [("default", language)], [], ""⟩ "default" =
        some language := rfl
    rw [add, prefer, hdefault]
    simp only [if_neg hlanguage]
    exact congrArg (Registration.mk · _) (List.append_nil entries)

/-! ## The preference -/

/-- The last `Language` that says anything about it decides on the preference. -/
theorem foldl_prefer_eq_some_iff {languages : List Element} {name : String} :
    languages.foldl prefer none = some name ↔
      name ≠ "" ∧ Latest (·.attribute? "default" = some name) (·.attribute? "default" = none)
        languages := by
  induction languages using List.reverseRecOn with
  | nil => simp [not_latest_nil]
  | append_singleton languages language ih =>
    rw [List.foldl_concat, prefer, latest_concat]
    cases language.attribute? "default" with
    | none => simpa using ih
    | some value =>
      simp only
      split
      · next hvalue => simp [hvalue, eq_comm]
      · next hvalue =>
        constructor
        · intro h
          cases h
          exact ⟨hvalue, .inl rfl⟩
        · intro h
          obtain ⟨-, hsays | ⟨hsilent, -⟩⟩ := h
          · exact hsays
          · cases hsilent

/-! ## Documents -/

/-- A document declares what it does by the order of its elements. Its rows may be
rewritten at every level as long as they hold the same elements that count, in the same
order; each `Level` says what may be put in, split and dropped there. Whatever can be
declared is, by the document that gives each file a `Language` and an `Info` of its own
and ends with the preference, and nothing else can be. The preference is that of the
last `Language` with the attribute for it, and none if it is empty there. -/
theorem grouping_ignored :
    (∀ root root' : Element,
      Relation.EqvGen languages.Edit root.children root'.children →
        ofElement root = ofElement root') ∧
      (∀ (declared : Registration) (name : String) (attributes : List (String × String))
        (content : String), declared.Declarable →
          ofElement ⟨name, attributes, declared.written, content⟩ = declared) ∧
      (∀ root : Element, (ofElement root).Declarable) ∧
      ∀ (root : Element) (name : String),
        (ofElement root).preferred = some name ↔
          name ≠ "" ∧ Latest (·.attribute? "default" = some name)
            (·.attribute? "default" = none) (root.named "Language") := by
  refine ⟨?_, ?_, declarable_ofElement, fun _ _ => foldl_prefer_eq_some_iff⟩
  · intro root root' h
    rw [ofElement_eq_run, ofElement_eq_run]
    exact Level.run_eq_of_eqvGen languages_blind h {}
  · intro declared name attributes content h
    exact ofElement_written h name attributes content

/-- Two files of one language, declared together. -/
def grouped : Element :=
  ⟨"Packs", [], [⟨"Language", [("default", "en")], [⟨"Info", [("name", "en")],
    [⟨"Source", [], [], "en.txt"⟩, ⟨"Source", [], [], "more.txt"⟩], ""⟩], ""⟩], ""⟩

/-- The same files one by one, with a note between them that holds a file of its own. -/
def scattered : Element :=
  ⟨"Packs", [],
    [⟨"Language", [("default", "en")],
      [⟨"Info", [("name", "en")], [⟨"Source", [], [], "en.txt"⟩], ""⟩], ""⟩,
    ⟨"Language", [],
      [⟨"Note", [], [⟨"Source", [], [], "old.txt"⟩], ""⟩,
      ⟨"Info", [("name", "en")], [⟨"Source", [], [], "more.txt"⟩], ""⟩], ""⟩], ""⟩

/-- They declare the same; and a file of a language, one of the user and a preference
are declared by the document that writes them out. -/
theorem grouping_ignored_scattered :
    Relation.EqvGen languages.Edit grouped.children scattered.children ∧
      ofElement grouped = ofElement scattered ∧
      Declarable ⟨[.pack "en" "en.txt", .user "own.txt"], some "en"⟩ ∧
      ofElement ⟨"Packs", [], written ⟨[.pack "en" "en.txt", .user "own.txt"], some "en"⟩, ""⟩ =
        ⟨[.pack "en" "en.txt", .user "own.txt"], some "en"⟩ := by
  obtain ⟨hedits, hwritten, -⟩ := grouping_ignored
  let first : Element := ⟨"Info", [("name", "en")], [⟨"Source", [], [], "en.txt"⟩], ""⟩
  let note : Element := ⟨"Note", [], [⟨"Source", [], [], "old.txt"⟩], ""⟩
  let second : Element := ⟨"Info", [("name", "en")], [⟨"Source", [], [], "more.txt"⟩], ""⟩
  have hinfo : languages.Edit grouped.children
      [⟨"Language", [("default", "en")], [first, second], ""⟩] :=
    .inside [] [] (Level.Edit.split [] [] rfl [_] [_] "" "" "") [("default", "en")] ""
  have hnote : languages.Edit [⟨"Language", [("default", "en")], [first, second], ""⟩]
      [⟨"Language", [("default", "en")], [first, note, second], ""⟩] :=
    .inside [] [] (Level.Edit.insert [first] [second] (by decide)) [("default", "en")] ""
  have hlanguage : languages.Edit [⟨"Language", [("default", "en")], [first, note, second], ""⟩]
      scattered.children :=
    .split [] [] (Or.inr rfl) [first] [note, second] "" "" ""
  have hchain : Relation.EqvGen languages.Edit grouped.children scattered.children :=
    ((Relation.EqvGen.rel _ _ hinfo).trans _ _ _ (.rel _ _ hnote)).trans _ _ _
      (.rel _ _ hlanguage)
  have hdeclarable : Declarable ⟨[.pack "en" "en.txt", .user "own.txt"], some "en"⟩ := by
    refine ⟨?_, by decide⟩
    intro entry hentry
    simp only [List.mem_cons, List.not_mem_nil, or_false] at hentry
    obtain rfl | rfl := hentry
    · change "en" ≠ ""
      decide
    · trivial
  exact ⟨hchain, hedits _ _ hchain, hdeclarable, hwritten _ _ _ _ hdeclarable⟩

end Registration

end Phrasebook
