import Phrasebook.Config
import Phrasebook.Proofs.Book.Ingestion

/-
  The book that a configuration makes, in closed form.

  Registrations, switches to preferred languages and loads follow each other
  while a book is made; what comes out depends on the order of the declared
  files alone, and on the last preference that could be met.

  What is proved:
    1. `loadRegistrations_state` — loading registration files is registering
       the documents of those that have one.
    2. `registerAll_state` — the packs, the user's layer and the language in
       use after registrations.
    3. `prepared_eq` — the book before the switch to the language asked for.
    4. `start_cases` — the book that is made, or the language that it lacks.
    5. `start_closed_form` — when a book is made, and which; and that no
       preference makes a difference to it where a language is asked for.
-/

namespace Phrasebook

open Registration

namespace Registration

def declared (registrations : List Registration) : List Entry :=
  registrations.flatMap (·.entries)

theorem declared_cons (registration : Registration) (rest : List Registration) :
    declared (registration :: rest) = registration.entries ++ declared rest := rfl

theorem packFiles_declared (registrations : List Registration) (language : String) :
    packFiles (declared registrations) language =
      registrations.flatMap fun registration => packFiles registration.entries language := by
  induction registrations with
  | nil => rfl
  | cons registration rest ih =>
    rw [declared_cons, packFiles_append, ih, List.flatMap_cons]

theorem userFiles_declared (registrations : List Registration) :
    userFiles (declared registrations) =
      registrations.flatMap fun registration => userFiles registration.entries := by
  induction registrations with
  | nil => rfl
  | cons registration rest ih =>
    rw [declared_cons, userFiles_append, ih, List.flatMap_cons]

theorem declared_congr {read read' : List Registration}
    (h : read'.map (·.entries) = read.map (·.entries)) : declared read' = declared read := by
  rw [declared, declared, List.flatMap_def, List.flatMap_def, h]

/-- The language in use after a registration: the one it prefers, if a file has
been declared for it by then. -/
def adopted (registration : Registration) (entries : List Entry) (current : String) : String :=
  match registration.preferred with
  | some name => if packFiles entries name = [] then current else name
  | none => current

/-- The language in use after registrations, where `before` has been declared
before them. -/
def languageAfter (before : List Entry) (current : String) : List Registration → String
  | [] => current
  | registration :: rest =>
    let entries := before ++ registration.entries
    languageAfter entries (registration.adopted entries current) rest

end Registration

namespace Packs

theorem files?_empty_addAll (entries : List Entry) (language : String) :
    ((∅ : Packs).addAll entries).files? language =
      if packFiles entries language = [] then none else some (packFiles entries language) := by
  rw [files?_addAll, files?, Std.ExtTreeMap.getElem?_empty]
  rfl

theorem getD_files?_empty_addAll (entries : List Entry) (language : String) :
    (((∅ : Packs).addAll entries).files? language).getD [] = packFiles entries language := by
  rw [files?_empty_addAll]
  split
  · next hnil => rw [hnil]; rfl
  · rfl

end Packs

theorem TagFile.gather_congr {storage storage' : Storage} {files : List String}
    (h : ∀ file ∈ files, fragment storage' file = fragment storage file) :
    gather storage' files = gather storage files :=
  List.foldl_ext _ _ ∅ fun tags file hmem => by rw [h file hmem]

namespace Book

variable {storage : Storage} {b : Book}

/-! ## Registrations -/

/-- The registrations in the files that can be read and parsed. -/
def registrations (storage : Storage) (files : List String) : List Registration :=
  files.filterMap fun file => (document? storage file).map .ofElement

def registerAll (storage : Storage) (registrations : List Registration) (b : Book) : Book :=
  registrations.foldl (fun b registration => (b.register storage registration).1) b

theorem loadRegistrations_state (storage : Storage) (files : List String) (b : Book) :
    (loadRegistrations storage files b).1 =
      b.registerAll storage (registrations storage files) := by
  induction files generalizing b with
  | nil => rfl
  | cons file files ih =>
    rw [loadRegistrations, ih]
    cases hdocument : document? storage file with
    | none =>
      have hskip : registrations storage (file :: files) = registrations storage files :=
        List.filterMap_cons_none (congrArg (Option.map Registration.ofElement) hdocument)
      obtain ⟨failure, hturn⟩ := loadRegistration_of_none (b := b) hdocument
      rw [hskip, hturn]
    | some root =>
      have hread : registrations storage (file :: files) =
          .ofElement root :: registrations storage files :=
        List.filterMap_cons_some (congrArg (Option.map Registration.ofElement) hdocument)
      rw [hread, loadRegistration_of_document hdocument]
      rfl

theorem registers_iff {before : List Entry} (hpacks : b.packs = (∅ : Packs).addAll before)
    {registration : Registration} {name : String} :
    b.registers registration name ↔ packFiles (before ++ registration.entries) name ≠ [] := by
  rw [registers, hpacks, ← Packs.addAll_append, Packs.files?_empty_addAll]
  split
  · next hnil => simp [hnil]
  · next hne => simp [hne]

theorem register_current (storage : Storage) (registration : Registration) {before : List Entry}
    (hpacks : b.packs = (∅ : Packs).addAll before) :
    (b.register storage registration).1.current =
      registration.adopted (before ++ registration.entries) b.current := by
  rw [adopted]
  obtain ⟨name, hpreferred, hregisters, hstate⟩ | ⟨hunknown, hstate⟩ :=
    register_cases storage registration b
  · have hne := (registers_iff hpacks).mp hregisters
    simp only [hstate, hpreferred, if_neg hne]
  · rw [hstate]
    cases hpreferred : registration.preferred with
    | none => rfl
    | some name =>
      have hnil : packFiles (before ++ registration.entries) name = [] := by
        by_contra hne
        have hregisters := (registers_iff hpacks).mpr hne
        rw [hunknown name hpreferred] at hregisters
        cases hregisters
      simp only [hnil, if_true]
      rfl

/-- Packs, the user's layer and the language in use after registrations of a
book whose packs are those of some entries. -/
theorem registerAll_state (storage : Storage) (before : List Entry)
    (registrations : List Registration) (hpacks : b.packs = (∅ : Packs).addAll before) :
    b.registerAll storage registrations =
      { b with
        packs := (∅ : Packs).addAll (before ++ declared registrations)
        tags :=
          { language := (b.registerAll storage registrations).tags.language
            user := TagFile.gatherOver storage b.tags.user (userFiles (declared registrations)) }
        current := languageAfter before b.current registrations } := by
  induction registrations generalizing b before with
  | nil =>
    rw [declared, List.flatMap_nil, List.append_nil, ← hpacks]
    rfl
  | cons registration rest ih =>
    have hframe := register_frame storage registration b
    have hafter : (b.register storage registration).1.packs =
        (∅ : Packs).addAll (before ++ registration.entries) := by
      rw [hframe, hpacks, Packs.addAll_append]
    rw [registerAll, List.foldl_cons, ← registerAll, ih _ hafter,
      register_current storage registration hpacks, register_user,
      ← TagFile.gatherOver_append, ← userFiles_append, ← declared_cons, List.append_assoc,
      ← declared_cons, hframe]
    rfl

theorem registerAll_synced (h : Synced storage b) {registrations : List Registration}
    (hnamed : ∀ registration ∈ registrations, ∀ entry ∈ registration.entries, entry.Named) :
    Synced storage (b.registerAll storage registrations) := by
  induction registrations generalizing b with
  | nil => exact h
  | cons registration rest ih =>
    obtain ⟨hfirst, hrest⟩ := List.forall_mem_cons.mp hnamed
    exact ih (register_synced h hfirst) hrest

theorem named_of_mem_registrations {files : List String} {registration : Registration}
    (h : registration ∈ registrations storage files) :
    ∀ entry ∈ registration.entries, entry.Named := by
  obtain ⟨file, -, hfile⟩ := List.mem_filterMap.mp h
  obtain ⟨root, -, rfl⟩ := Option.map_eq_some_iff.mp hfile
  exact fun entry => named_of_mem_ofElement

/-! ## Starting -/

/-- The book of declared entries, with a language in use. -/
def ofEntries (storage : Storage) (config : Config) (entries : List Entry) (current : String) :
    Book where
  packs := (∅ : Packs).addAll entries
  tags :=
    { language := TagFile.gather storage (packFiles entries current)
      user := TagFile.gather storage (userFiles entries ++ config.userFiles) }
  current
  maxPasses := config.maxPasses

/-- The book before the switch to the language that is asked for. -/
def prepared (storage : Storage) (config : Config) : Book :=
  (loadAll storage .user config.userFiles
    (loadRegistrations storage config.registrations { maxPasses := config.maxPasses }).1).1

theorem prepared_eq (storage : Storage) (config : Config) :
    let read := registrations storage config.registrations
    prepared storage config =
      ofEntries storage config (declared read) (languageAfter [] "" read) := by
  intro read
  let fresh : Book := { maxPasses := config.maxPasses }
  have hsynced : Synced storage (fresh.registerAll storage read) :=
    registerAll_synced (synced_fresh storage config.maxPasses) fun registration hmem =>
      named_of_mem_registrations hmem
  have hstate := registerAll_state storage (b := fresh) [] read rfl
  have hlanguage : (fresh.registerAll storage read).tags.language =
      TagFile.gather storage (packFiles (declared read) (languageAfter [] "" read)) := by
    rw [hsynced.language_eq, files, hstate]
    exact congrArg (TagFile.gather storage) (Packs.getD_files?_empty_addAll _ _)
  rw [prepared, loadRegistrations_state, loadAll_state, Layers.foldl_merge, hstate, hlanguage,
    ← TagFile.gatherOver_append]
  rfl

theorem ofEntries_switch (storage : Storage) (config : Config) (entries : List Entry)
    (current name : String) :
    if packFiles entries name = [] then
      ((ofEntries storage config entries current).switch storage name).answer =
        .error (.unknownLanguage name)
    else
      ((ofEntries storage config entries current).switch storage name).answer = .ok () ∧
        ((ofEntries storage config entries current).switch storage name).state =
          ofEntries storage config entries name := by
  have hfiles := Packs.files?_empty_addAll entries name
  split
  · next hnil =>
    rw [if_pos hnil] at hfiles
    rw [switch, ofEntries, hfiles]
  · next hne =>
    rw [if_neg hne] at hfiles
    exact switch_of_some (b := ofEntries storage config entries current) storage hfiles

def asked? (config : Config) : Option String := config.language.filter (· ≠ "")

theorem asked?_eq_some_iff {config : Config} {language : String} :
    asked? config = some language ↔ config.language = some language ∧ language ≠ "" := by
  simp [asked?, Option.filter_eq_some_iff]

theorem start_of_none (storage : Storage) {config : Config} (h : asked? config = none) :
    (start storage config).answer = .ok () ∧
      (start storage config).state = prepared storage config := by
  rw [asked?] at h
  simp only [start, h]
  exact ⟨trivial, rfl⟩

theorem start_of_some (storage : Storage) {config : Config} {language : String}
    (h : asked? config = some language) :
    (start storage config).answer = ((prepared storage config).switch storage language).answer ∧
      (start storage config).state = ((prepared storage config).switch storage language).state := by
  rw [asked?] at h
  simp only [start, h]
  exact ⟨rfl, rfl⟩

/-- A start ends with a book, or without one where the language asked for is not
declared. -/
theorem start_cases (storage : Storage) (config : Config) :
    let read := registrations storage config.registrations
    let turn := start storage config
    (∃ language, asked? config = some language ∧ packFiles (declared read) language = [] ∧
        turn.answer = .error (.unknownLanguage language)) ∨
      ((∀ language, asked? config = some language → packFiles (declared read) language ≠ []) ∧
        turn.answer = .ok () ∧
        turn.state = ofEntries storage config (declared read)
          ((asked? config).getD (languageAfter [] "" read))) := by
  intro read turn
  have hprepared : prepared storage config = ofEntries storage config (declared read)
    (languageAfter [] "" read) := prepared_eq storage config
  cases hasked : asked? config with
  | none =>
    obtain ⟨hanswer, hstate⟩ := start_of_none storage hasked
    refine .inr ⟨nofun, hanswer, ?_⟩
    rw [hstate, hprepared]
    rfl
  | some language =>
    obtain ⟨hanswer, hstate⟩ := start_of_some storage hasked
    have hswitch :=
      ofEntries_switch storage config (declared read) (languageAfter [] "" read) language
    rw [← hprepared, ← hanswer, ← hstate] at hswitch
    split at hswitch
    · next hnil => exact .inl ⟨language, rfl, hnil, hswitch⟩
    · next hne =>
      refine .inr ⟨fun name hname => ?_, hswitch⟩
      cases hname
      exact hne

/-! ## Preferences -/

theorem ofEntries_congr {storage' : Storage} (config : Config) {entries : List Entry}
    {current : String}
    (hfiles : ∀ file ∈ packFiles entries current ++ (userFiles entries ++ config.userFiles),
      TagFile.fragment storage' file = TagFile.fragment storage file) :
    ofEntries storage' config entries current = ofEntries storage config entries current := by
  obtain ⟨hlanguage, huser⟩ := List.forall_mem_append.mp hfiles
  rw [ofEntries, ofEntries, TagFile.gather_congr hlanguage, TagFile.gather_congr huser]

/-- Where a language is asked for, what a start comes to depends on the entries
of the registrations, and not on the languages that they prefer. -/
theorem start_congr {storage' : Storage} {config : Config} {language : String}
    (hasked : asked? config = some language)
    (hentries : (registrations storage' config.registrations).map (·.entries) =
      (registrations storage config.registrations).map (·.entries))
    (hfiles : ∀ file ∈ packFiles (declared (registrations storage config.registrations)) language ++
        (userFiles (declared (registrations storage config.registrations)) ++ config.userFiles),
      TagFile.fragment storage' file = TagFile.fragment storage file) :
    (start storage' config).answer = (start storage config).answer ∧
      ((start storage config).answer = .ok () →
        (start storage' config).state = (start storage config).state) := by
  have hdeclared := declared_congr hentries
  have hcases := start_cases storage config
  have hcases' := start_cases storage' config
  simp only [hasked, hdeclared, Option.some.injEq, exists_eq_left', forall_eq',
    Option.getD_some] at hcases hcases'
  obtain ⟨hnil, hanswer⟩ | ⟨hne, hanswer, hstate⟩ := hcases
  · obtain ⟨-, hanswer'⟩ | ⟨hne', -⟩ := hcases'
    · refine ⟨hanswer'.trans hanswer.symm, fun hok => ?_⟩
      rw [hanswer] at hok
      cases hok
    · exact absurd hnil hne'
  · obtain ⟨hnil', -⟩ | ⟨-, hanswer', hstate'⟩ := hcases'
    · exact absurd hnil' hne
    · refine ⟨hanswer'.trans hanswer.symm, fun _ => ?_⟩
      rw [hstate, hstate', ofEntries_congr config hfiles]

/-! ## The closed form -/

/-- A configuration asks for a language that no registration has a file for. -/
def Lacks (config : Config) (read : List Registration) (language : String) : Prop :=
  config.language = some language ∧ language ≠ "" ∧
    ∀ registration ∈ read, packFiles registration.entries language = []

theorem lacks_iff {config : Config} {read : List Registration} {language : String} :
    Lacks config read language ↔
      asked? config = some language ∧ packFiles (declared read) language = [] := by
  rw [Lacks, asked?_eq_some_iff, packFiles_declared, List.flatMap_eq_nil_iff, and_assoc]

theorem start_error_iff (storage : Storage) (config : Config) (failure : Failure) :
    (start storage config).answer = .error failure ↔
      ∃ language, Lacks config (registrations storage config.registrations) language ∧
        failure = .unknownLanguage language := by
  obtain ⟨language, hasked, hnil, hanswer⟩ | ⟨hdeclared, hanswer, -⟩ := start_cases storage config
  · rw [hanswer]
    constructor
    · rintro ⟨⟩
      exact ⟨language, lacks_iff.mpr ⟨hasked, hnil⟩, rfl⟩
    · rintro ⟨name, hlacks, rfl⟩
      have hname := (lacks_iff.mp hlacks).1
      rw [hasked] at hname
      cases hname
      rfl
  · rw [hanswer]
    refine ⟨nofun, ?_⟩
    rintro ⟨name, hlacks, -⟩
    obtain ⟨hasked, hnil⟩ := lacks_iff.mp hlacks
    exact absurd hnil (hdeclared name hasked)

theorem start_of_not_lacks {config : Config}
    (h : ∀ language, ¬Lacks config (registrations storage config.registrations) language) :
    (start storage config).answer = .ok () ∧
      (start storage config).state =
        ofEntries storage config (declared (registrations storage config.registrations))
          ((asked? config).getD
            (languageAfter [] "" (registrations storage config.registrations))) := by
  obtain ⟨language, hasked, hnil, -⟩ | ⟨-, hmade⟩ := start_cases storage config
  · exact absurd (lacks_iff.mpr ⟨hasked, hnil⟩) (h language)
  · exact hmade

/-- A start fails exactly where the language asked for is declared nowhere.
Otherwise the packs have the declared files in order and the layers the tags of those
that can be read and are well-formed, the later over the earlier, whatever language
was in use when they were declared; and the language is the one asked for or else
the last preference that could be met. -/
theorem start_closed_form (storage : Storage) (config : Config) :
    let read := registrations storage config.registrations
    let turn := start storage config
    (∀ failure, turn.answer = .error failure ↔
      ∃ language, Lacks config read language ∧ failure = .unknownLanguage language) ∧
    ((∀ language, ¬Lacks config read language) →
      turn.answer = .ok () ∧
      (∀ language, turn.state.packs.files? language =
        let files := read.flatMap fun registration => packFiles registration.entries language
        if files = [] then none else some files) ∧
      turn.state.tags.user = Tags.mergeAll ∅ (TagFile.legible storage
        ((read.flatMap fun registration => userFiles registration.entries) ++
          config.userFiles)) ∧
      turn.state.current = (asked? config).getD (languageAfter [] "" read) ∧
      turn.state.tags.language = Tags.mergeAll ∅
        (TagFile.legible storage ((turn.state.packs.files? turn.state.current).getD [])) ∧
      turn.state.maxPasses = config.maxPasses) ∧
    (∀ storage' language, config.language = some language → language ≠ "" →
      (registrations storage' config.registrations).map (·.entries) = read.map (·.entries) →
      (∀ file ∈ packFiles (declared read) language ++
          (userFiles (declared read) ++ config.userFiles),
        TagFile.fragment storage' file = TagFile.fragment storage file) →
      (start storage' config).answer = turn.answer ∧
        (turn.answer = .ok () → (start storage' config).state = turn.state)) := by
  intro read turn
  refine ⟨start_error_iff storage config, ?made, ?same⟩
  case made =>
    intro hlacks
    obtain ⟨hanswer, hstate⟩ := start_of_not_lacks hlacks
    change turn.state = _ at hstate
    rw [hstate]
    refine ⟨hanswer, fun language => ?_, ?_, rfl, ?_, rfl⟩
    · rw [← packFiles_declared]
      exact Packs.files?_empty_addAll _ language
    · rw [← userFiles_declared, ← TagFile.gatherOver_eq_mergeAll]
      rfl
    · rw [← TagFile.gatherOver_eq_mergeAll]
      exact congrArg (TagFile.gather storage) (Packs.getD_files?_empty_addAll _ _).symm
  case same =>
    intro storage' language hlanguage hne
    exact start_congr (asked?_eq_some_iff.mpr ⟨hlanguage, hne⟩)

def shelf (preferred : String) : Storage := fun file =>
  ⟨[], if file = "packs.xml" then
      .read (Utf8.encode ("<R><Language default=\"" ++ preferred ++
        "\"><Info name=\"en\"><Source>one</Source></Info></Language></R>").toList)
    else if file = "one" then .read (Utf8.encode "yes\tYes".toList)
    else .absent⟩

theorem start_closed_form_shelf :
    let config : Config := { registrations := ["packs.xml", "more.xml"], userFiles := ["mine"] }
    let asking : Config := { config with language := some "en" }
    (start (shelf "en") config).answer = .ok () ∧
      (start (shelf "en") config).state.current = "en" ∧
      (start (shelf "en") config).state.packs.files? "en" = some ["one"] ∧
      (start (shelf "xx") asking).answer = .ok () ∧
      (start (shelf "xx") asking).state = (start (shelf "en") asking).state := by
  intro config asking
  have hread : registrations (shelf "en") config.registrations =
      [⟨[.pack "en" "one"], some "en"⟩] := by decide +kernel
  have hread' : registrations (shelf "xx") config.registrations =
      [⟨[.pack "en" "one"], some "xx"⟩] := by decide +kernel
  obtain ⟨-, hmade, -⟩ := start_closed_form (shelf "en") config
  obtain ⟨hok, hpacks, -, hcurrent, -⟩ := hmade fun language hlacks => by cases hlacks.1
  obtain ⟨-, hasked, hsame⟩ := start_closed_form (shelf "en") asking
  have hlacks : ∀ language, ¬Lacks asking (registrations (shelf "en") asking.registrations)
      language := by
    intro language h
    cases h.1
    exact absurd (h.2.2 ⟨[.pack "en" "one"], some "en"⟩ (by rw [hread]; decide)) (by decide)
  obtain ⟨hanswer, hstate⟩ := hsame (shelf "xx") "en" rfl (by decide) (by rw [hread, hread']; rfl)
    (by rw [hread]; decide +kernel)
  refine ⟨hok, ?_, ?_, hanswer.trans (hasked hlacks).1, hstate (hasked hlacks).1⟩
  · rw [hcurrent, hread]
    decide
  · rw [hpacks, hread]
    decide

end Book

end Phrasebook
