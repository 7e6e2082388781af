import Phrasebook.Proofs.Book.Synced
import Phrasebook.Proofs.Library.Step

/-
  The books of a library stay in step with their packs.

  What is proved:
    1. `perform_synced` — every operation but loading a file into a language
       layer by hand leaves all books in step, also a document handed in at a
       desk where a book is attached.
    2. `run_synced` — so after any operations on a fresh library the language
       layer of a book is what the files of its language give, and switching
       to that language again changes nothing.
-/

namespace Phrasebook.Library

/-- A library whose books are all in step. -/
def Synced (storage : Storage) (l : Library) : Prop :=
  ∀ place b, l.book? place = some b → Book.Synced storage b

/-- Loading a file into the language layer of a book by hand. -/
def Operation.ByHand : Operation → Prop
  | .act _ action => action.ByHand
  | _ => False

variable {storage : Storage} {l : Library}

theorem fresh_synced (storage : Storage) (bounds : List Nat) (desks : Nat) :
    Synced storage (fresh bounds desks) := by
  intro place b h
  rw [book?, fresh, List.getElem?_map] at h
  cases hbound : bounds[place]? with
  | none => rw [hbound] at h; cases h
  | some maxPasses =>
    rw [hbound] at h
    cases h
    exact Book.synced_fresh storage maxPasses

theorem setBook_synced (h : Synced storage l) {place : Nat} {b : Book}
    (hb : Book.Synced storage b) : Synced storage (l.setBook place b) := by
  intro p c hc
  rcases join_getElem?_set hc with hbc | hc
  · cases hbc
    exact hb
  · exact h p c hc

theorem drop_synced (h : Synced storage l) (place : Nat) : Synced storage (l.drop place) := by
  intro p c hc
  rcases join_getElem?_set hc with hnone | hc
  · cases hnone
  · exact h p c hc

theorem act_synced (h : Synced storage l) (place : Nat) {action : Book.Action}
    (haction : ¬action.ByHand) : Synced storage (l.act storage place action).state := by
  rw [act]
  split
  · exact h
  · next b hb => exact setBook_synced h (Book.perform_synced (h place b hb) haction)

theorem attach_synced (h : Synced storage l) (place desk : Nat) (held : Bool) :
    Synced storage (l.attach place desk held).1 := by
  obtain ⟨-, hstate⟩ | ⟨-, -, b, hb, hstate⟩ := attach_inv l place desk held
  · rw [hstate]
    exact h
  · rw [hstate]
    exact setBook_synced h ((h place b hb).congr rfl rfl rfl)

theorem detach_synced (h : Synced storage l) (place desk : Nat) :
    Synced storage (l.detach place desk).1 := by
  obtain ⟨-, hstate⟩ | ⟨-, b, hb, hstate⟩ := detach_inv l place desk
  · rw [hstate]
    exact h
  · rw [hstate]
    exact setBook_synced h ((h place b hb).congr rfl rfl rfl)

theorem handle_synced (h : Synced storage l) (held : Option Nat) (handler : Handler)
    (root : Markup.Element) (file : String) :
    Synced storage (l.handle storage held handler root file).state := by
  cases handler with
  | recorder recorder => exact h
  | book place =>
    obtain ⟨failure, -, hturn⟩ | ⟨b, hb, -, hturn⟩ :=
      handle_book_inv storage held place root file l
    · rw [hturn]
      exact h
    · rw [hturn]
      exact setBook_synced h (Book.ingest_synced (h place b hb) root)

theorem deliver_synced (h : Synced storage l) (held : Option Nat) (desk : Nat)
    (root : Markup.Element) (file : String) :
    Synced storage (l.deliver storage held desk root file).state := by
  rw [deliver]
  split
  · exact h
  · exact handle_synced h held _ root file

theorem load_synced (h : Synced storage l) (source : Storage) (held : Option Nat) (desk : Nat)
    (file : String) : Synced storage (l.load storage source held desk file).state := by
  rw [load]
  split
  · exact h
  · split
    · exact h
    · exact deliver_synced h held desk _ file

theorem perform_synced (h : Synced storage l) {operation : Operation}
    (hoperation : ¬operation.ByHand) : Synced storage (l.perform storage operation).state := by
  cases operation with
  | act place action => exact act_synced h place hoperation
  | drop place => exact drop_synced h place
  | attach place desk held => exact attach_synced h place desk held
  | detach place desk => exact detach_synced h place desk
  | register desk kind recorder => exact h
  | unregister desk kind => exact h
  | knows desk kind => exact h
  | load source desk file held => exact load_synced h source held desk file
  | deliver desk root file held => exact deliver_synced h held desk root file

theorem run_synced {operations : List Operation} (h : Synced storage l)
    (hoperations : ∀ operation ∈ operations, ¬operation.ByHand) :
    Synced storage (run storage operations l).state := by
  induction operations generalizing l with
  | nil => exact h
  | cons operation operations ih =>
    obtain ⟨hoperation, hoperations⟩ := List.forall_mem_cons.mp hoperations
    exact ih (perform_synced h hoperation) hoperations

/-- Whatever was done with a fresh library, short of loading a file into a
language layer by hand: the layer of a book is gathered from the files of its
language, empty without one, and switching to the language in use again
changes nothing. -/
theorem language_gathered (storage : Storage) (bounds : List Nat) (desks : Nat)
    (operations : List Operation) (hoperations : ∀ operation ∈ operations, ¬operation.ByHand)
    (place : Nat) (b : Book)
    (hb : (run storage operations (fresh bounds desks)).state.book? place = some b) :
    b.tags.language = TagFile.gather storage b.files ∧
      (b.current = "" → b.tags.language = ∅) ∧
      (b.current ≠ "" → (b.switch storage b.current).answer = .ok () ∧
        (b.switch storage b.current).state = b) := by
  have h := run_synced (fresh_synced storage bounds desks) hoperations place b hb
  exact ⟨h.language_eq, h.language_eq_empty, Book.switch_current h⟩

def english (file : String) : Markup.Element :=
  ⟨"Registration", [("type", "Language")], [⟨"Language", [("default", "en")],
    [⟨"Info", [("name", "en")], [⟨"Source", [], [], file⟩], ""⟩], ""⟩], ""⟩

def oneFile : Storage := fun file =>
  ⟨[], if file = "one" then .read (Utf8.encode "yes\tYes".toList) else .absent⟩

/-- A document handed in at a desk, and one without its file. -/
def twoDocuments : List Operation :=
  [.attach 0 0 false, .deliver 0 (english "one") "first" none, .act 0 (.ingest (english "two")),
    .act 0 (.addUserTag "no" "No")]

theorem language_gathered_english :
    (∀ operation ∈ twoDocuments, ¬operation.ByHand) ∧
      ∃ b, (run oneFile twoDocuments (fresh [64] 1)).state.book? 0 = some b ∧
        b.tags.language["yes"]? = some "Yes" ∧
        b.tags.language = TagFile.gather oneFile ["one", "two"] ∧
        (b.switch oneFile "en").answer = .ok () ∧ (b.switch oneFile "en").state = b := by
  have hoperations : ∀ operation ∈ twoDocuments, ¬operation.ByHand := by
    simp [twoDocuments, Operation.ByHand, Book.Action.ByHand]
  have hrun : ((run oneFile twoDocuments (fresh [64] 1)).state.book? 0).map (fun b =>
      (b.current, b.files, b.tags.language["yes"]?)) = some ("en", ["one", "two"], some "Yes") := by
    cbv
  obtain ⟨b, hb, heq⟩ := Option.map_eq_some_iff.mp hrun
  simp only [Prod.mk.injEq] at heq
  obtain ⟨hcurrent, hfiles, hyes⟩ := heq
  obtain ⟨hlanguage, -, hswitch⟩ :=
    language_gathered oneFile [64] 1 twoDocuments hoperations 0 b hb
  rw [hfiles] at hlanguage
  rw [hcurrent] at hswitch
  exact ⟨hoperations, b, hb, hyes, hlanguage, hswitch (by decide)⟩

end Phrasebook.Library
