import Phrasebook.Book.Action
import Phrasebook.Proofs.Book.Loading

/-
  The language layer of a book is that of its pack.

  A file declared for the language in use is loaded on the spot, and a switch
  loads the whole pack. Either way the layer holds what the files of the pack
  give when they are gathered in order (`Synced`), so that it makes no
  difference to switch to the language in use once more.

  What is proved:
    1. `accept_synced`, `register_synced` — a registration keeps a book in
       step with its packs.
    2. `perform_synced` — so does every action but loading a file into the
       language layer by hand.
    3. `switch_current` — a switch to the language in use changes nothing.
-/

namespace Phrasebook

/-- No file is declared for a language without a name. -/
def Registration.Entry.Named : Registration.Entry → Prop
  | .user _ => True
  | .pack language _ => language ≠ ""

theorem Registration.named_of_mem_ofElement {root : Markup.Element} {entry : Registration.Entry}
    (h : entry ∈ (Registration.ofElement root).entries) : entry.Named := by
  obtain ⟨language, -, h⟩ := List.mem_flatMap.mp h
  obtain ⟨info, -, h⟩ := List.mem_flatMap.mp h
  obtain ⟨source, -, rfl⟩ := List.mem_map.mp h
  rw [Entry.under]
  split
  · trivial
  · assumption

namespace Packs

theorem files?_add_self (p : Packs) (language file : String) :
    (p.add language file).files? language = some ((p.files? language).getD [] ++ [file]) := by
  rw [add, files?, Std.ExtTreeMap.getElem?_insert_self]

theorem files?_add_of_ne {p : Packs} {language name : String} (h : language ≠ name)
    (file : String) : (p.add language file).files? name = p.files? name := by
  rw [add, files?, Std.ExtTreeMap.getElem?_insert, if_neg (by simpa using h)]
  rfl

end Packs

namespace Book

def files (b : Book) : List String := (b.packs.files? b.current).getD []

/-- A book whose language layer holds what its files give. -/
structure Synced (storage : Storage) (b : Book) : Prop where
  language_eq : b.tags.language = TagFile.gather storage b.files
  unnamed : b.packs.files? "" = none
  registered : b.current ≠ "" → (b.packs.files? b.current).isSome

variable {storage : Storage} {b : Book}

/-- A book is in step by its packs, its language and the language layer. -/
theorem Synced.congr (h : Synced storage b) {b' : Book} (hpacks : b'.packs = b.packs)
    (hlanguage : b'.tags.language = b.tags.language) (hcurrent : b'.current = b.current) :
    Synced storage b' where
  language_eq := by rw [hlanguage, h.language_eq, files, files, hpacks, hcurrent]
  unnamed := by rw [hpacks, h.unnamed]
  registered := by rw [hpacks, hcurrent]; exact h.registered

theorem Synced.language_eq_empty (h : Synced storage b) (hcurrent : b.current = "") :
    b.tags.language = ∅ := by
  rw [h.language_eq, files, hcurrent, h.unnamed]
  rfl

theorem synced_fresh (storage : Storage) (maxPasses : Nat) : Synced storage { maxPasses } where
  language_eq := rfl
  unnamed := rfl
  registered h := absurd rfl h

theorem load_user_synced (h : Synced storage b) (file : String) :
    Synced storage (b.load storage .user file).state := by
  rw [load_state]
  exact h.congr rfl rfl rfl

/-- A declared file is added to its pack and, if that is in use, to the layer. -/
theorem accept_synced (h : Synced storage b) {entry : Registration.Entry} (hentry : entry.Named) :
    Synced storage (b.accept storage entry).state := by
  cases entry with
  | user file => exact load_user_synced h file
  | pack language file =>
    rw [accept]
    split
    -- the pack in use: the file is gathered last, and has been loaded last
    · next hcurrent =>
      subst hcurrent
      rw [load_state]
      have hself := b.packs.files?_add_self b.current file
      refine ⟨?_, ?_, fun _ => ?_⟩
      · rw [files, hself, Option.getD_some, TagFile.gather_append_singleton, ← files,
          ← h.language_eq]
        rfl
      · rw [Packs.files?_add_of_ne hentry, h.unnamed]
      · rw [hself, Option.isSome_some]
    -- another pack: what is gathered stays the same
    · next hcurrent =>
      have hother := Packs.files?_add_of_ne (p := b.packs) hcurrent file
      refine ⟨?_, ?_, ?_⟩
      · rw [files, hother, ← files, h.language_eq]
      · rw [Packs.files?_add_of_ne hentry, h.unnamed]
      · rw [hother]
        exact h.registered

theorem acceptAll_synced (h : Synced storage b) {entries : List Registration.Entry}
    (hentries : ∀ entry ∈ entries, entry.Named) :
    Synced storage (b.acceptAll storage entries).state := by
  induction entries generalizing b with
  | nil => exact h
  | cons entry entries ih =>
    obtain ⟨hentry, hentries⟩ := List.forall_mem_cons.mp hentries
    exact ih (accept_synced h hentry) hentries

/-- A switch brings a book in step from wherever its layer was. -/
theorem switch_synced (h : Synced storage b) (name : String) :
    Synced storage (b.switch storage name).state := by
  cases hfiles : b.packs.files? name with
  | none =>
    rw [switch_of_none storage hfiles]
    exact h
  | some files =>
    rw [(switch_of_some storage hfiles).2]
    refine ⟨?_, h.unnamed, fun _ => ?_⟩
    · rw [Book.files, hfiles, Option.getD_some]
    · rw [hfiles, Option.isSome_some]

theorem register_synced (h : Synced storage b) {registration : Registration}
    (hentries : ∀ entry ∈ registration.entries, entry.Named) :
    Synced storage (b.register storage registration).1 := by
  have haccepted := acceptAll_synced h hentries
  rw [register]
  split
  · exact switch_synced haccepted _
  · split
    · exact haccepted
    · exact haccepted

theorem ingest_synced (h : Synced storage b) (root : Markup.Element) :
    Synced storage (b.ingest storage root).1 :=
  register_synced h fun _ => Registration.named_of_mem_ofElement

theorem loadRegistration_synced (h : Synced storage b) (file : String) :
    Synced storage (b.loadRegistration storage file).state := by
  rw [loadRegistration]
  split
  · exact h
  · split
    · exact h
    · exact ingest_synced h _

theorem resolve_synced (h : Synced storage b) (line : String) :
    Synced storage (b.resolve line).state :=
  h.congr rfl rfl rfl

/-- Loading a file into the language layer by hand. -/
def Action.ByHand : Action → Prop
  | .load .language _ => True
  | _ => False

/-- No other action takes the language layer out of step with the packs. -/
theorem perform_synced (h : Synced storage b) {action : Action} (haction : ¬action.ByHand) :
    Synced storage (b.perform storage action).state := by
  cases action with
  | loadRegistration file => exact loadRegistration_synced h file
  | ingest root => exact ingest_synced h root
  | load scope file =>
    cases scope with
    | language => exact absurd trivial haction
    | user => exact load_user_synced h file
  | switch name => exact switch_synced h name
  | text tag => exact h
  | resolve line => exact resolve_synced h line
  | addUserTag tag value => exact h.congr rfl rfl rfl
  | clearUserTags => exact h.congr rfl rfl rfl
  | subscribe handle => exact h.congr rfl rfl rfl
  | unsubscribe id => exact h.congr rfl rfl rfl
  | setFallback answer => exact h.congr rfl rfl rfl
  | clearFallback => exact h.congr rfl rfl rfl

theorem switch_current (h : Synced storage b) (hcurrent : b.current ≠ "") :
    (b.switch storage b.current).answer = .ok () ∧ (b.switch storage b.current).state = b := by
  obtain ⟨files, hfiles⟩ := Option.isSome_iff_exists.mp (h.registered hcurrent)
  obtain ⟨hanswer, hstate⟩ := switch_of_some storage hfiles
  refine ⟨hanswer, ?_⟩
  have hlanguage := h.language_eq
  rw [Book.files, hfiles, Option.getD_some] at hlanguage
  rw [hstate, ← hlanguage]

end Book

end Phrasebook
