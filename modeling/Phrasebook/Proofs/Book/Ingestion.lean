import Phrasebook.Book.Action
import Phrasebook.Proofs.Book.Synced

/-
  What taking in a registration makes of a book, in closed form.

  What is proved:
    1. `files?_addAll` — the packs after entries: each pack has got the files
       that the entries add to it, in order.
    2. `acceptAll_state`, `acceptAll_answer` — declared files are added to their
       packs, those of the user are gathered over the user's layer and those of
       the language in use over the language's; listeners have to know if a
       file was declared for that language, or one for the user can be read.
    3. `register_cases` — with a preferred language that is registered by then
       the book is switched to it, and without one it stays as it is.
    4. `loadRegistration_of_document`, `loadRegistration_of_none` — loading a
       registration file is taking in its document, if it has one.
-/

namespace Phrasebook

/-! ## Packs -/

namespace Registration

theorem packFiles_append (entries entries' : List Entry) (language : String) :
    packFiles (entries ++ entries') language =
      packFiles entries language ++ packFiles entries' language :=
  List.filterMap_append

theorem userFiles_append (entries entries' : List Entry) :
    userFiles (entries ++ entries') = userFiles entries ++ userFiles entries' :=
  List.filterMap_append

theorem packFiles_user (file : String) (entries : List Entry) (language : String) :
    packFiles (.user file :: entries) language = packFiles entries language := rfl

theorem packFiles_pack (l file : String) (entries : List Entry) (language : String) :
    packFiles (.pack l file :: entries) language =
      if l = language then file :: packFiles entries language else packFiles entries language := by
  by_cases h : l = language
  · simp [packFiles, h]
  · simp [packFiles, h]

theorem packFiles_unnamed {entries : List Entry} (h : ∀ entry ∈ entries, entry.Named) :
    packFiles entries "" = [] := by
  rw [packFiles, List.filterMap_eq_nil_iff]
  intro entry hentry
  have hnamed := h entry hentry
  cases entry with
  | user file => rfl
  | pack language file => exact if_neg hnamed

theorem userFiles_user (file : String) (entries : List Entry) :
    userFiles (.user file :: entries) = file :: userFiles entries := rfl

theorem userFiles_pack (language file : String) (entries : List Entry) :
    userFiles (.pack language file :: entries) = userFiles entries := rfl

end Registration

open Registration

namespace Packs

def addEntry (p : Packs) : Entry → Packs
  | .user _ => p
  | .pack language file => p.add language file

def addAll (p : Packs) (entries : List Entry) : Packs := entries.foldl addEntry p

/-- A pack is what it was, with the files that the entries add to it behind it. -/
theorem files?_addAll (p : Packs) (entries : List Entry) (language : String) :
    (p.addAll entries).files? language =
      if packFiles entries language = [] then p.files? language
      else some ((p.files? language).getD [] ++ packFiles entries language) := by
  induction entries generalizing p with
  | nil => rfl
  | cons entry entries ih =>
    rw [addAll, List.foldl_cons, ← addAll, ih]
    cases entry with
    | user file => rfl
    | pack l file =>
      rw [packFiles_pack, addEntry]
      by_cases hl : l = language
      · subst hl
        rw [files?_add_self]
        by_cases hrest : packFiles entries l = []
        · simp [hrest]
        · simp [hrest]
      · rw [files?_add_of_ne hl]
        simp [hl]

/-- Packs grow at their ends. -/
theorem files?_addAll_of_some {p : Packs} {language : String} {files : List String}
    (h : p.files? language = some files) (entries : List Entry) :
    (p.addAll entries).files? language = some (files ++ packFiles entries language) := by
  rw [files?_addAll, h]
  by_cases hnil : packFiles entries language = []
  · simp [hnil]
  · simp [hnil]

theorem addAll_append (p : Packs) (entries entries' : List Entry) :
    p.addAll (entries ++ entries') = (p.addAll entries).addAll entries' :=
  List.foldl_append

end Packs

def Storage.readable (storage : Storage) (file : String) : Bool := (storage.contents file).isOk

namespace TagFile

theorem fragment_of_unreadable {storage : Storage} {file : String}
    (h : storage.readable file = false) : fragment storage file = ∅ := by
  rw [fragment, contents]
  rw [Storage.readable] at h
  cases hcontents : storage.contents file with
  | error failure => rfl
  | ok bytes => rw [hcontents] at h; cases h

theorem gatherOver_append (storage : Storage) (base : Tags) (files files' : List String) :
    gatherOver storage base (files ++ files') =
      gatherOver storage (gatherOver storage base files) files' :=
  List.foldl_append

theorem gatherOver_of_unreadable {storage : Storage} {files : List String} (base : Tags)
    (h : files.any storage.readable = false) : gatherOver storage base files = base := by
  induction files generalizing base with
  | nil => rfl
  | cons file files ih =>
    obtain ⟨hfile, hfiles⟩ := Bool.or_eq_false_iff.mp h
    have hstep := ih (base.merge (fragment storage file)) hfiles
    rw [fragment_of_unreadable hfile, Tags.merge_empty] at hstep
    rw [gatherOver, List.foldl_cons, fragment_of_unreadable hfile, Tags.merge_empty]
    exact hstep

end TagFile

/-! ## Declared files -/

namespace Book

/-- The book with declared files taken in. -/
def withEntries (storage : Storage) (entries : List Entry) (b : Book) : Book :=
  { b with
    packs := b.packs.addAll entries
    tags :=
      { language := TagFile.gatherOver storage b.tags.language (packFiles entries b.current)
        user := TagFile.gatherOver storage b.tags.user (userFiles entries) } }

variable {storage : Storage} {b : Book}

theorem isOk_load (scope : Scope) (file : String) :
    (b.load storage scope file).answer.isOk = storage.readable file := by
  rw [load, TagFile.contents, Storage.readable]
  cases storage.contents file with
  | error failure => rfl
  | ok bytes =>
    simp only
    cases (TagFile.Format.ofName file).read bytes with
    | error fault => rfl
    | ok tags => rfl

theorem accept_user (file : String) :
    (b.accept storage (.user file)).answer = storage.readable file ∧
      (b.accept storage (.user file)).state =
        { b with tags := b.tags.merge .user (TagFile.fragment storage file) } :=
  ⟨isOk_load .user file, load_state storage .user b file⟩

theorem accept_pack (language file : String) :
    (b.accept storage (.pack language file)).answer = decide (language = b.current) ∧
      (b.accept storage (.pack language file)).state =
        if language = b.current then
          { b with
            packs := b.packs.add language file
            tags := b.tags.merge .language (TagFile.fragment storage file) }
        else { b with packs := b.packs.add language file } := by
  rw [accept]
  by_cases hcurrent : language = b.current
  · rw [if_pos hcurrent, if_pos hcurrent, load_state]
    exact ⟨(decide_eq_true hcurrent).symm, rfl⟩
  · rw [if_neg hcurrent, if_neg hcurrent]
    exact ⟨(decide_eq_false hcurrent).symm, rfl⟩

theorem acceptAll_state (entries : List Entry) :
    (b.acceptAll storage entries).state = b.withEntries storage entries := by
  induction entries generalizing b with
  | nil => rfl
  | cons entry entries ih =>
    rw [acceptAll, ih]
    cases entry with
    | user file =>
      rw [(accept_user file).2]
      rfl
    | pack language file =>
      rw [(accept_pack language file).2]
      by_cases hcurrent : language = b.current
      · rw [if_pos hcurrent, withEntries, withEntries, packFiles_pack, if_pos hcurrent]
        rfl
      · rw [if_neg hcurrent, withEntries, withEntries, packFiles_pack, if_neg hcurrent]
        rfl

theorem acceptAll_answer (entries : List Entry) :
    (b.acceptAll storage entries).answer =
      (!(packFiles entries b.current).isEmpty || (userFiles entries).any storage.readable) := by
  induction entries generalizing b with
  | nil => rfl
  | cons entry entries ih =>
    rw [acceptAll, ih]
    cases entry with
    | user file =>
      rw [(accept_user file).1, (accept_user file).2, packFiles_user, userFiles_user,
        List.any_cons, Bool.or_left_comm]
    | pack language file =>
      have hcurrent : (b.accept storage (.pack language file)).state.current = b.current := by
        rw [(accept_pack language file).2]
        split
        · rfl
        · rfl
      rw [(accept_pack language file).1, hcurrent, packFiles_pack, userFiles_pack]
      by_cases hlanguage : language = b.current
      · simp [hlanguage]
      · simp [hlanguage]

/-! ## Registrations -/

/-- The languages that a registration leaves registered. -/
def registers (registration : Registration) (name : String) (b : Book) : Bool :=
  ((b.packs.addAll registration.entries).files? name).isSome

theorem register_of_none {registration : Registration} (h : registration.preferred = none) :
    (b.register storage registration).1 = b.withEntries storage registration.entries := by
  rw [register, h]
  simp only
  split
  · exact acceptAll_state registration.entries
  · exact acceptAll_state registration.entries

theorem register_of_some {registration : Registration} {name : String}
    (h : registration.preferred = some name) :
    (b.register storage registration).1 =
      ((b.withEntries storage registration.entries).switch storage name).state := by
  rw [register, h]
  simp only [acceptAll_state]

/-- The book that a registration leaves: with its files taken in, and switched
to the preferred language if that is registered then. -/
theorem register_cases (storage : Storage) (registration : Registration) (b : Book) :
    (∃ name, registration.preferred = some name ∧ b.registers registration name = true ∧
        (b.register storage registration).1 =
          { b.withEntries storage registration.entries with
            tags :=
              { language := TagFile.gather storage
                  (((b.packs.addAll registration.entries).files? name).getD [])
                user := TagFile.gatherOver storage b.tags.user (userFiles registration.entries) }
            current := name }) ∨
      ((∀ name, registration.preferred = some name → b.registers registration name = false) ∧
        (b.register storage registration).1 = b.withEntries storage registration.entries) := by
  cases hpreferred : registration.preferred with
  | none => exact .inr ⟨nofun, register_of_none hpreferred⟩
  | some name =>
    rw [register_of_some hpreferred]
    cases hfiles : (b.packs.addAll registration.entries).files? name with
    | none =>
      refine .inr ⟨fun name' hname => ?_, switch_of_none storage hfiles⟩
      cases hname
      rw [registers, hfiles]
      rfl
    | some files =>
      refine .inl ⟨name, rfl, by rw [registers, hfiles]; rfl, ?_⟩
      rw [(switch_of_some storage hfiles).2, hfiles]
      rfl

theorem register_frame (storage : Storage) (registration : Registration) (b : Book) :
    (b.register storage registration).1 =
      { b with
        packs := b.packs.addAll registration.entries
        tags := (b.register storage registration).1.tags
        current := (b.register storage registration).1.current } := by
  obtain ⟨name, -, -, hstate⟩ | ⟨-, hstate⟩ := register_cases storage registration b
  · rw [hstate]
    rfl
  · rw [hstate]
    rfl

theorem register_user (storage : Storage) (registration : Registration) (b : Book) :
    (b.register storage registration).1.tags.user =
      TagFile.gatherOver storage b.tags.user (userFiles registration.entries) := by
  obtain ⟨name, -, -, hstate⟩ | ⟨-, hstate⟩ := register_cases storage registration b
  · rw [hstate]
  · rw [hstate]
    rfl

theorem packs_ingest (storage : Storage) (root : Markup.Element) (b : Book) :
    (b.ingest storage root).1.packs = b.packs.addAll (ofElement root).entries := by
  rw [ingest, register_frame]

/-! ## Registration files -/

/-- The root of the registration document in a file, if it can be read and
parsed. -/
def document? (storage : Storage) (file : String) : Option Markup.Element :=
  match storage.contents file with
  | .error _ => none
  | .ok bytes => (Markup.Element.ofBytes bytes).toOption

theorem loadRegistration_of_document {file : String} {root : Markup.Element}
    (h : document? storage file = some root) :
    b.loadRegistration storage file =
      ⟨.ok (), (b.ingest storage root).1,
        storage.missEvents file ++ (b.ingest storage root).2⟩ := by
  rw [document?] at h
  rw [loadRegistration]
  cases hcontents : storage.contents file with
  | error failure =>
    rw [hcontents] at h
    cases h
  | ok bytes =>
    rw [hcontents] at h
    cases hroot : Markup.Element.ofBytes bytes with
    | error fault =>
      simp only [hroot] at h
      cases h
    | ok r =>
      simp only [hroot] at h
      cases h
      simp only [hroot]

theorem loadRegistration_of_none {file : String} (h : document? storage file = none) :
    ∃ failure, b.loadRegistration storage file =
      ⟨.error failure, b, storage.missEvents file ++ [.logged (.failed failure)]⟩ := by
  rw [document?] at h
  rw [loadRegistration]
  cases hcontents : storage.contents file with
  | error failure => exact ⟨failure, rfl⟩
  | ok bytes =>
    rw [hcontents] at h
    cases hroot : Markup.Element.ofBytes bytes with
    | error fault => exact ⟨.malformed file fault, by simp only [hroot]⟩
    | ok root =>
      simp only [hroot] at h
      cases h

end Book

end Phrasebook
