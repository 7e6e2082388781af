import Phrasebook.Proofs.Book.Start
import Phrasebook.Proofs.Library.Delivery

/-
  What an operation puts on record of the things that go wrong in it.

  An operation is a row of steps: it reads registration files, looks up
  languages and loads tag files. Which steps it takes depends on the packs and
  the language in use, and not on the tags: a step that fails never keeps a later
  one from being taken. Failures are passed over on the way, since whatever
  fails has been put on record by then; so it is, and once.

  What is proved:
    1. `alarms_switch`, `alarms_register`, `alarms_loadRegistration` — the errors
       and warnings among the events of an operation are the complaints of its
       steps, in order.
    2. `alarms_loadRegistrations` — so they are over many registration files,
       where each one may change the packs and the language for the next.
    3. `alarms_reported` — so for every operation, the start included, and
       silence means that all of its steps have succeeded.
-/

namespace Phrasebook

open Registration

/-- An event that is an error or a warning in the log, with its text. -/
def Event.alarm? : Event → Option (Level × String)
  | .logged record =>
    if record.level = .error ∨ record.level = .warn then some (record.level, record.message)
    else none
  | _ => none

def alarms (events : List Event) : List (Level × String) := events.filterMap Event.alarm?

@[simp] theorem alarms_nil : alarms [] = [] := rfl

@[simp] theorem alarms_append (events events' : List Event) :
    alarms (events ++ events') = alarms events ++ alarms events' :=
  List.filterMap_append

theorem alarms_eq_nil {events : List Event} (h : ∀ event ∈ events, event.alarm? = none) :
    alarms events = [] := by
  rw [alarms, List.filterMap_eq_nil_iff]
  exact h

/-- Places where a file was looked for in vain are no alarm. -/
@[simp] theorem alarms_missEvents (storage : Storage) (file : String) :
    alarms (storage.missEvents file) = [] := by
  apply alarms_eq_nil
  intro event hevent
  obtain ⟨miss, -, rfl⟩ := List.mem_map.mp hevent
  rfl

theorem alarms_tried (storage : Storage) (file : String) (record : Record) :
    alarms (storage.missEvents file ++ [.logged record]) =
      (Event.logged record).alarm?.toList := by
  rw [alarms_append, alarms_missEvents, List.nil_append, alarms, List.filterMap_cons]
  cases (Event.logged record).alarm? <;> rfl

@[simp] theorem Book.alarms_announce (b : Book) : alarms b.announce = [] := by
  apply alarms_eq_nil
  intro event hevent
  obtain ⟨listener, -, rfl⟩ := List.mem_map.mp hevent
  rfl

/-! ## Steps -/

inductive Step where
  | tagFile (file : String)
  | registrationFile (file : String)
  | language (name : String) (registered : Bool)

namespace Step

/-- A step succeeds if its file can be read and parsed, or its language is
registered. -/
def Succeeds (storage : Storage) : Step → Prop
  | tagFile file => ∃ bytes tags, (storage file).reading = .read bytes ∧
      (TagFile.Format.ofName file).read bytes = .ok tags
  | registrationFile file => ∃ bytes root, (storage file).reading = .read bytes ∧
      Markup.Element.ofBytes bytes = .ok root
  | language _ registered => registered = true

/-- What is put on record of a file that cannot be had, or whose contents are
faulty; the second is as grave as `level` says. -/
def fileComplaint? {α : Type} (storage : Storage) (file : String) (level : Level)
    (read : List UInt8 → Except Markup.Fault α) : Option (Level × String) :=
  match (storage file).reading with
  | .absent => some (.error, (Failure.missing file).message)
  | .failed fault => some (.error, (Failure.unreadable file fault).message)
  | .read bytes =>
    match read bytes with
    | .error fault => some (level, (Failure.malformed file fault).message)
    | .ok _ => none

/-- What is put on record of a step that fails. A tag file with faulty markup is
no more than a warning. -/
def complaint? (storage : Storage) : Step → Option (Level × String)
  | tagFile file => fileComplaint? storage file .warn (TagFile.Format.ofName file).read
  | registrationFile file => fileComplaint? storage file .error Markup.Element.ofBytes
  | language name registered =>
    if registered then none else some (.error, "Language '" ++ name ++ "' is not found")

theorem fileComplaint?_eq_none_iff {α : Type} {storage : Storage} {file : String} {level : Level}
    {read : List UInt8 → Except Markup.Fault α} :
    fileComplaint? storage file level read = none ↔
      ∃ bytes result, (storage file).reading = .read bytes ∧ read bytes = .ok result := by
  rw [fileComplaint?]
  cases hreading : (storage file).reading with
  | absent => simp
  | failed fault => simp
  | read bytes =>
    cases hread : read bytes with
    | error fault => simp [hread]
    | ok result => simp [hread]

theorem complaint?_eq_none_iff {storage : Storage} {step : Step} :
    step.complaint? storage = none ↔ step.Succeeds storage := by
  cases step with
  | tagFile file => exact fileComplaint?_eq_none_iff
  | registrationFile file => exact fileComplaint?_eq_none_iff
  | language name registered => cases registered <;> simp [complaint?, Succeeds]

end Step

/-- What is put on record of steps: of each that fails its complaint, in order. -/
def complaints (storage : Storage) (steps : List Step) : List (Level × String) :=
  steps.filterMap (Step.complaint? storage)

@[simp] theorem complaints_nil (storage : Storage) : complaints storage [] = [] :=
  List.filterMap_nil

@[simp] theorem complaints_append (storage : Storage) (steps steps' : List Step) :
    complaints storage (steps ++ steps') = complaints storage steps ++ complaints storage steps' :=
  List.filterMap_append

theorem complaints_cons (storage : Storage) (step : Step) (steps : List Step) :
    complaints storage (step :: steps) = complaints storage [step] ++ complaints storage steps :=
  complaints_append storage [step] steps

theorem complaints_eq_nil_iff {storage : Storage} {steps : List Step} :
    complaints storage steps = [] ↔ ∀ step ∈ steps, step.Succeeds storage := by
  rw [complaints, List.filterMap_eq_nil_iff]
  simp only [Step.complaint?_eq_none_iff]

namespace Book

variable {storage : Storage} {b : Book}

/-! ## Loading and switching -/

theorem alarms_load (scope : Scope) (file : String) :
    alarms (b.load storage scope file).events = complaints storage [.tagFile file] := by
  simp only [load, TagFile.contents, Storage.contents, complaints, List.filterMap_cons,
    List.filterMap_nil, Step.complaint?, Step.fileComplaint?]
  cases (storage file).reading with
  | absent => exact alarms_tried storage file _
  | failed fault => exact alarms_tried storage file _
  | read bytes =>
    cases hread : (TagFile.Format.ofName file).read bytes with
    | error fault =>
      simp only [hread]
      exact alarms_tried storage file _
    | ok tags =>
      simp only [hread]
      exact alarms_tried storage file _

theorem alarms_loadAll (scope : Scope) (files : List String) :
    alarms (loadAll storage scope files b).2 = complaints storage (files.map .tagFile) := by
  induction files generalizing b with
  | nil => rfl
  | cons file files ih =>
    rw [loadAll, alarms_append, alarms_load, ih, List.map_cons,
      complaints_cons storage (.tagFile file) (files.map .tagFile)]

/-- The steps of a switch: the language is looked up, and the files of its pack
are loaded if it has one. -/
def switchSteps (packs : Packs) (name : String) : List Step :=
  match packs.files? name with
  | none => [.language name false]
  | some files => .language name true :: files.map .tagFile

theorem alarms_switch (name : String) :
    alarms (b.switch storage name).events = complaints storage (switchSteps b.packs name) := by
  rw [switch, switchSteps]
  cases b.packs.files? name with
  | none => rfl
  | some files =>
    have hswitched (state : Book) : alarms (.logged (.switched name) :: state.announce) = [] :=
      state.alarms_announce
    simp only [alarms_append, alarms_loadAll, hswitched, List.append_nil]
    rfl

/-! ## Registrations -/

/-- The step for a declared file: one of the user's or of the language in use is
loaded. -/
def entrySteps (current : String) : Entry → List Step
  | .user file => [.tagFile file]
  | .pack language file => if language = current then [.tagFile file] else []

/-- The steps of a registration: its files, and the switch to the language that it
prefers, with its own files in the packs by then. -/
def registerSteps (packs : Packs) (current : String) (registration : Registration) : List Step :=
  registration.entries.flatMap (entrySteps current) ++
    registration.preferred.elim [] (switchSteps (packs.addAll registration.entries))

theorem alarms_accept (entry : Entry) :
    alarms (b.accept storage entry).events = complaints storage (entrySteps b.current entry) := by
  cases entry with
  | user file => exact alarms_load .user file
  | pack language file =>
    rw [accept, entrySteps]
    by_cases hcurrent : language = b.current
    · rw [if_pos hcurrent, if_pos hcurrent]
      exact alarms_load .language file
    · rw [if_neg hcurrent, if_neg hcurrent]
      rfl

theorem current_accept (entry : Entry) : (b.accept storage entry).state.current = b.current := by
  cases entry with
  | user file => rw [(accept_user file).2]
  | pack language file =>
    rw [(accept_pack language file).2]
    split <;> rfl

theorem alarms_acceptAll (entries : List Entry) :
    alarms (b.acceptAll storage entries).events =
      complaints storage (entries.flatMap (entrySteps b.current)) := by
  induction entries generalizing b with
  | nil => rfl
  | cons entry entries ih =>
    rw [acceptAll, alarms_append, alarms_accept, ih, current_accept, List.flatMap_cons,
      complaints_append]

theorem alarms_register (registration : Registration) :
    alarms (b.register storage registration).2 =
      complaints storage (registerSteps b.packs b.current registration) := by
  rw [register, registerSteps, complaints_append, ← alarms_acceptAll]
  cases registration.preferred with
  | none =>
    simp only [Option.elim_none, complaints_nil, List.append_nil]
    split
    · simp
    · rfl
  | some name =>
    simp only [alarms_append, alarms_switch, acceptAll_state, Option.elim_some]
    rfl

def loadRegistrationSteps (storage : Storage) (packs : Packs) (current file : String) :
    List Step :=
  .registrationFile file ::
    (document? storage file).elim [] fun root => registerSteps packs current (.ofElement root)

theorem alarms_loadRegistration (file : String) :
    alarms (b.loadRegistration storage file).events =
      complaints storage (loadRegistrationSteps storage b.packs b.current file) := by
  simp only [loadRegistrationSteps, loadRegistration_eq, document?_eq]
  rw [complaints_cons]
  simp only [Storage.document, Storage.contents, complaints, List.filterMap_cons,
    List.filterMap_nil, Step.complaint?, Step.fileComplaint?]
  cases (storage file).reading with
  | absent => exact alarms_tried storage file _
  | failed fault => exact alarms_tried storage file _
  | read bytes =>
    cases hread : Markup.Element.ofBytes bytes with
    | error fault =>
      simp only [hread]
      exact alarms_tried storage file _
    | ok root =>
      simp only [hread, alarms_append, alarms_missEvents, List.nil_append]
      exact alarms_register (.ofElement root)

/-! ## Starting -/

/-- The language in use after a registration that leaves `packs`. -/
def currentAfter (packs : Packs) (registration : Registration) (current : String) : String :=
  match registration.preferred with
  | some name => if (packs.files? name).isSome then name else current
  | none => current

theorem current_register (registration : Registration) :
    (b.register storage registration).1.current =
      currentAfter (b.packs.addAll registration.entries) registration b.current := by
  rw [currentAfter]
  obtain ⟨name, hpreferred, hregisters, hstate⟩ | ⟨hunknown, hstate⟩ :=
    register_cases storage registration b
  · rw [registers] at hregisters
    simp only [hstate, hpreferred, if_pos hregisters]
  · rw [hstate]
    cases hpreferred : registration.preferred with
    | none => rfl
    | some name =>
      have hnone := hunknown name hpreferred
      rw [registers] at hnone
      simp only [hnone, Bool.false_eq_true, if_false]
      rfl

/-- The steps of loading registration files in order. What a file declares and
prefers counts for those behind it. -/
def loadRegistrationsSteps (storage : Storage) : (packs : Packs) → (current : String) →
    List String → List Step
  | _, _, [] => []
  | packs, current, file :: files =>
    loadRegistrationSteps storage packs current file ++
      match document? storage file with
      | none => loadRegistrationsSteps storage packs current files
      | some root =>
        let after := packs.addAll (Registration.ofElement root).entries
        loadRegistrationsSteps storage after (currentAfter after (.ofElement root) current) files

theorem alarms_loadRegistrations (files : List String) :
    alarms (loadRegistrations storage files b).2 =
      complaints storage (loadRegistrationsSteps storage b.packs b.current files) := by
  induction files generalizing b with
  | nil => rfl
  | cons file files ih =>
    rw [loadRegistrations, loadRegistrationsSteps, complaints_append, alarms_append,
      alarms_loadRegistration, ih]
    congr 1
    cases hdocument : document? storage file with
    | none =>
      obtain ⟨failure, hturn⟩ := loadRegistration_of_none (b := b) hdocument
      rw [hturn]
    | some root =>
      rw [loadRegistration_of_document hdocument, ingest, current_register, register_frame]

/-- The steps of a start: the registration files, the files of the user, and the
switch to the language that is asked for. -/
def startSteps (storage : Storage) (config : Config) : List Step :=
  loadRegistrationsSteps storage ∅ "" config.registrations ++ config.userFiles.map .tagFile ++
    (asked? config).elim []
      (switchSteps ((∅ : Packs).addAll (declared (registrations storage config.registrations))))

theorem packs_prepared (storage : Storage) (config : Config) :
    (prepared storage config).packs =
      (∅ : Packs).addAll (declared (registrations storage config.registrations)) := by
  rw [prepared_eq]
  rfl

theorem alarms_start (storage : Storage) (config : Config) :
    alarms (start storage config).events = complaints storage (startSteps storage config) := by
  have hready (b : Book) : alarms [b.readyEvent] = [] := rfl
  rw [startSteps, complaints_append, complaints_append, ← packs_prepared, ← alarms_loadAll .user,
    ← alarms_loadRegistrations (b := { maxPasses := config.maxPasses })]
  rw [start, asked?]
  cases config.language.filter (· ≠ "") with
  | none =>
    simp only [alarms_append, hready, Option.elim_none, complaints_nil]
    rfl
  | some language =>
    simp only [alarms_append, alarms_switch, Option.elim_some]
    split
    · rw [hready, List.append_nil]
      rfl
    · rw [alarms_nil, List.append_nil]
      rfl

/-- The errors and warnings among the events are the complaints of the steps that
fail, one for each and in order. -/
def Reported (storage : Storage) (steps : List Step) (events : List Event) : Prop :=
  alarms events = complaints storage steps ∧
    (alarms events = [] ↔ ∀ step ∈ steps, step.Succeeds storage)

theorem reported_of_eq {steps : List Step} {events : List Event}
    (h : alarms events = complaints storage steps) : Reported storage steps events := by
  refine ⟨h, ?_⟩
  rw [h]
  exact complaints_eq_nil_iff

/-- Whatever fails is put on record once, and nothing else is an error or a
warning: for every state of a book, loading a tag file, switching, taking in a
registration document or file, and for every start. -/
theorem alarms_reported (storage : Storage) (b : Book) :
    (∀ scope file, Reported storage [.tagFile file] (b.load storage scope file).events) ∧
      (∀ name, Reported storage (switchSteps b.packs name) (b.switch storage name).events) ∧
      (∀ root, Reported storage (registerSteps b.packs b.current (.ofElement root))
        (b.ingest storage root).2) ∧
      (∀ file, Reported storage (loadRegistrationSteps storage b.packs b.current file)
        (b.loadRegistration storage file).events) ∧
      ∀ config, Reported storage (startSteps storage config) (start storage config).events := by
  refine ⟨?_, ?_, ?_, ?_, ?_⟩
  · intro scope file
    exact reported_of_eq (alarms_load scope file)
  · intro name
    exact reported_of_eq (alarms_switch name)
  · intro root
    exact reported_of_eq (alarms_register (.ofElement root))
  · intro file
    exact reported_of_eq (alarms_loadRegistration file)
  · intro config
    exact reported_of_eq (alarms_start storage config)

end Book

end Phrasebook
