import Phrasebook.Proofs.Book.Ingestion

/-
  When the listeners of a book are called.

  An action calls all listeners or none. They are called at its very end, once
  each and in the order of their subscription, with the language in use then.

  What is proved:
    1. `onlyRecords_loadAll`, `onlyRecords_acceptAll` — all that is seen of files
       which are loaded or taken in is what is put on record.
    2. `switch_announced`, `register_announced` — a switch calls them if it is
       granted; a registration, if the preferred language is registered by
       then, or, without one, if listeners have to know of a file.
    3. `perform_announced` — so for every action; no other one calls them.
    4. `sees_same_of_silent` — a registration without a preferred language
       that calls nobody has changed nothing that a reader sees.
-/

namespace Phrasebook

def Event.call? : Event → Option (Nat × String)
  | .changed listener language => some (listener, language)
  | _ => none

def calls (events : List Event) : List (Nat × String) := events.filterMap Event.call?

@[simp] theorem calls_nil : calls [] = [] := List.filterMap_nil

@[simp] theorem calls_logged (record : Record) (events : List Event) :
    calls (.logged record :: events) = calls events :=
  List.filterMap_cons_none rfl

@[simp] theorem calls_append (events events' : List Event) :
    calls (events ++ events') = calls events ++ calls events' :=
  List.filterMap_append

theorem mem_calls {events : List Event} {listener : Nat} {language : String} :
    (listener, language) ∈ calls events ↔ .changed listener language ∈ events := by
  rw [calls, List.mem_filterMap]
  constructor
  · rintro ⟨event, hmem, hcall⟩
    cases event with
    | changed listener' language' =>
      cases hcall
      exact hmem
    | _ => cases hcall
  · intro hmem
    exact ⟨_, hmem, rfl⟩

theorem calls_eq_nil {events : List Event} (h : ∀ event ∈ events, event.call? = none) :
    calls events = [] := by
  rw [calls, List.filterMap_eq_nil_iff]
  exact h

/-- Events that are records alone: nobody is called or asked, and no recorder
has got anything. -/
def OnlyRecords (events : List Event) : Prop := ∀ event ∈ events, ∃ record, event = .logged record

theorem onlyRecords_nil : OnlyRecords [] := by
  intro event h
  cases h

theorem onlyRecords_missEvents (storage : Storage) (file : String) :
    OnlyRecords (storage.missEvents file) := by
  intro event h
  obtain ⟨miss, -, rfl⟩ := List.mem_map.mp h
  exact ⟨.missed miss, rfl⟩

theorem OnlyRecords.append {events events' : List Event} (h : OnlyRecords events)
    (h' : OnlyRecords events') : OnlyRecords (events ++ events') := by
  intro event hevent
  rcases List.mem_append.mp hevent with hevent | hevent
  · exact h event hevent
  · exact h' event hevent

theorem onlyRecords_tried (storage : Storage) (file : String) (record : Record) :
    OnlyRecords (storage.missEvents file ++ [.logged record]) := by
  apply (onlyRecords_missEvents storage file).append
  intro event h
  exact ⟨record, List.mem_singleton.mp h⟩

theorem OnlyRecords.calls_eq {events : List Event} (h : OnlyRecords events) :
    calls events = [] := by
  apply calls_eq_nil
  intro event hevent
  obtain ⟨record, rfl⟩ := h event hevent
  rfl

@[simp] theorem calls_missEvents (storage : Storage) (file : String) :
    calls (storage.missEvents file) = [] :=
  (onlyRecords_missEvents storage file).calls_eq

namespace Book

open Registration

variable {storage : Storage} {b : Book}

theorem calls_announce (b : Book) :
    calls b.announce = b.listeners.map fun listener => (listener.handle, b.current) := by
  rw [calls, announce, List.filterMap_map]
  exact congrFun List.filterMap_eq_map b.listeners

/-- Events that call nobody, and at the end, if they are told, the listeners of
a book. -/
def Announced (b : Book) (told : Bool) (events : List Event) : Prop :=
  ∃ earlier, calls earlier = [] ∧ events = earlier ++ if told then b.announce else []

theorem announced_of_silent {events : List Event} (h : calls events = []) :
    b.Announced false events :=
  ⟨events, h, by simp⟩

namespace Announced
variable {told : Bool} {events : List Event}

theorem calls_eq (h : b.Announced told events) :
    calls events =
      if told then b.listeners.map fun listener => (listener.handle, b.current) else [] := by
  obtain ⟨earlier, hearlier, rfl⟩ := h
  rw [calls_append, hearlier, List.nil_append]
  split
  · exact b.calls_announce
  · rfl

theorem behind (h : b.Announced told events) {earlier : List Event}
    (hearlier : calls earlier = []) : b.Announced told (earlier ++ events) := by
  obtain ⟨between, hbetween, rfl⟩ := h
  exact ⟨earlier ++ between, by simp [hearlier, hbetween], by simp⟩

end Announced

/-! ## Loading and switching -/

theorem onlyRecords_load (storage : Storage) (scope : Scope) (file : String) (b : Book) :
    OnlyRecords (b.load storage scope file).events := by
  rw [load]
  cases TagFile.contents storage file with
  | failed failure => exact onlyRecords_tried storage file _
  | malformed fault => exact onlyRecords_tried storage file _
  | tags tags => exact onlyRecords_tried storage file _

theorem onlyRecords_loadAll (storage : Storage) (scope : Scope) (files : List String) (b : Book) :
    OnlyRecords (loadAll storage scope files b).2 := by
  induction files generalizing b with
  | nil => exact onlyRecords_nil
  | cons file files ih => exact (onlyRecords_load storage scope file b).append (ih _)

theorem switch_announced (storage : Storage) (b : Book) (name : String) :
    (b.switch storage name).state.Announced (b.packs.files? name).isSome
      (b.switch storage name).events := by
  rw [switch]
  cases b.packs.files? name with
  | none => exact announced_of_silent rfl
  | some files =>
    let cleared : Book := { b with tags := b.tags.write .clearLanguage, current := name }
    refine ⟨(loadAll storage .language files cleared).2 ++ [.logged (.switched name)], ?_, ?_⟩
    · simp [(onlyRecords_loadAll storage .language files cleared).calls_eq]
    · simp [cleared]

/-! ## Registrations -/

theorem onlyRecords_accept (storage : Storage) (entry : Entry) (b : Book) :
    OnlyRecords (b.accept storage entry).events := by
  cases entry with
  | user file => exact onlyRecords_load storage .user file b
  | pack language file =>
    rw [accept]
    split
    · exact onlyRecords_load storage .language file _
    · exact onlyRecords_nil

theorem onlyRecords_acceptAll (storage : Storage) (entries : List Entry) (b : Book) :
    OnlyRecords (b.acceptAll storage entries).events := by
  induction entries generalizing b with
  | nil => exact onlyRecords_nil
  | cons entry entries ih => exact (onlyRecords_accept storage entry b).append (ih _)

/-- Whether a registration calls the listeners: its preferred language is
registered by then, or it has none, and a file is declared for the language in
use or one for the user can be read. -/
def notifies (storage : Storage) (registration : Registration) (b : Book) : Bool :=
  match registration.preferred with
  | some name => b.registers registration name
  | none =>
    !(packFiles registration.entries b.current).isEmpty ||
      (userFiles registration.entries).any storage.readable

theorem register_announced (storage : Storage) (registration : Registration) (b : Book) :
    (b.register storage registration).1.Announced (b.notifies storage registration)
      (b.register storage registration).2 := by
  have hsilent := (onlyRecords_acceptAll storage registration.entries b).calls_eq
  rw [register, notifies]
  cases registration.preferred with
  | some name =>
    have hswitch := switch_announced storage (b.acceptAll storage registration.entries).state name
    rw [acceptAll_state] at hswitch
    simp only [acceptAll_state]
    exact hswitch.behind hsilent
  | none =>
    simp only [acceptAll_answer]
    split
    · next htold => rw [htold]; exact ⟨_, hsilent, rfl⟩
    · next htold => rw [Bool.eq_false_iff.mpr htold]; exact announced_of_silent hsilent

/-- The texts of all tags and the language in use are the same. -/
def SeesSame (b b' : Book) : Prop :=
  (∀ tag, b'.tags.lookup tag = b.tags.lookup tag) ∧ b'.current = b.current

theorem sees_same_of_silent {registration : Registration} (hnone : registration.preferred = none)
    (hsilent : b.notifies storage registration = false) :
    b.SeesSame (b.register storage registration).1 := by
  rw [notifies, hnone] at hsilent
  obtain ⟨hpack, huser⟩ := Bool.or_eq_false_iff.mp hsilent
  have hfiles : packFiles registration.entries b.current = [] := by simpa using hpack
  rw [register_of_none hnone, withEntries, hfiles, TagFile.gatherOver_of_unreadable _ huser]
  exact ⟨fun tag => rfl, rfl⟩

/-- A registration that changes what a reader sees calls all listeners, unless
it prefers a language that is not registered. -/
theorem register_told_iff {registration : Registration}
    (hchanged : ¬b.SeesSame (b.register storage registration).1) :
    (∀ listener ∈ b.listeners, ∃ name,
        .changed listener.handle name ∈ (b.register storage registration).2) ↔
      b.listeners = [] ∨ ∀ name, registration.preferred = some name →
        ((b.register storage registration).1.packs.files? name).isSome := by
  have hcalls := (register_announced storage registration b).calls_eq
  have hframe := register_frame storage registration b
  have hlisteners : (b.register storage registration).1.listeners = b.listeners := by rw [hframe]
  have hpacks : (b.register storage registration).1.packs =
      b.packs.addAll registration.entries := by
    rw [hframe]
  simp only [← mem_calls, hcalls, hlisteners, hpacks]
  cases htold : b.notifies storage registration with
  | true =>
    refine ⟨fun _ => .inr fun name hname => ?_, fun _ listener hmem => ?_⟩
    · simpa only [notifies, hname, registers] using htold
    · exact ⟨_, List.mem_map_of_mem hmem⟩
  | false =>
    simp only [Bool.false_eq_true, if_false, List.not_mem_nil, exists_false]
    constructor
    · intro hnone
      exact .inl (List.eq_nil_iff_forall_not_mem.mpr hnone)
    · rintro (hempty | hregistered)
      · simp [hempty]
      · cases hpreferred : registration.preferred with
        | none => exact absurd (sees_same_of_silent hpreferred htold) hchanged
        | some name =>
          simp only [notifies, hpreferred, registers] at htold
          rw [hregistered name hpreferred] at htold
          cases htold

/-! ## Actions -/

def Action.notifies (storage : Storage) (action : Action) (b : Book) : Bool :=
  match action with
  | .switch name => (b.switch storage name).answer.isOk
  | .ingest root => b.notifies storage (.ofElement root)
  | .loadRegistration file =>
    match document? storage file with
    | some root => b.notifies storage (.ofElement root)
    | none => false
  | _ => false

theorem isOk_switch (name : String) :
    (b.switch storage name).answer.isOk = (b.packs.files? name).isSome := by
  rw [switch]
  cases b.packs.files? name with
  | none => rfl
  | some files => rfl

theorem calls_resolve (line : String) : calls (b.resolve line).events = [] := by
  refine calls_eq_nil fun event hevent => ?_
  rw [resolve, List.mem_append, List.mem_map, List.mem_map] at hevent
  obtain ⟨tag, -, rfl⟩ | ⟨record, -, rfl⟩ := hevent
  · rfl
  · rfl

theorem perform_announced (storage : Storage) (action : Action) (b : Book) :
    (b.perform storage action).state.Announced (action.notifies storage b)
      (b.perform storage action).events := by
  cases action with
  | loadRegistration file =>
    rw [perform, Action.notifies]
    cases hdocument : document? storage file with
    | none =>
      obtain ⟨failure, hturn⟩ := loadRegistration_of_none (b := b) hdocument
      rw [hturn]
      exact announced_of_silent (by simp)
    | some root =>
      rw [loadRegistration_of_document hdocument]
      exact (register_announced storage _ b).behind (calls_missEvents storage file)
  | ingest root => exact register_announced storage _ b
  | load scope file =>
    exact announced_of_silent (onlyRecords_load storage scope file b).calls_eq
  | switch name =>
    rw [Action.notifies, isOk_switch]
    exact switch_announced storage b name
  | resolve line => exact announced_of_silent (calls_resolve line)
  | text | addUserTag | clearUserTags | subscribe | unsubscribe | setFallback | clearFallback =>
    exact announced_of_silent rfl

end Book

end Phrasebook
