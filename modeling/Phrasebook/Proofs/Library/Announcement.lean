import Phrasebook.Proofs.Book.Announcement
import Phrasebook.Proofs.Library.Attachment
import Phrasebook.Proofs.Library.Synced

/-
  Registrations that reach a book, and whether its listeners hear of them.

  A document reaches a book in one of three ways: it is given to the book, the
  book reads it from a file, or it is handed in at a desk where the book is
  attached.

  What is proved:
    1. `registers_cases` — in all three ways the book takes the document in, and
       nothing else happens; or nothing happens at all.
    2. `registration_told_iff` — a registration that changes what a reader of the
       book sees calls all its listeners, unless it prefers a language that is
       not registered: then it calls none of them, and there is such a
       registration.
-/

namespace Phrasebook.Library

/-- The operations by which a registration can reach a book. -/
def Operation.Registers : Operation → Prop
  | .act _ (.ingest _) => True
  | .act _ (.loadRegistration _) => True
  | .load .. => True
  | .deliver .. => True
  | _ => False

/-- The place of the book that takes in what is handed in at a desk. -/
def recipient? (l : Library) (g : Nat) (root : Markup.Element) (held : Option Nat) : Option Nat :=
  match (l.desk g)[root.kind]? with
  | some (.book place) => if held = some place then none else some place
  | _ => none

/-- The document that an operation has for a book, and the place of that book. -/
def document? (storage : Storage) (operation : Operation) (l : Library) :
    Option (Nat × Markup.Element) :=
  match operation with
  | .act place (.ingest root) => some (place, root)
  | .act place (.loadRegistration file) => (Book.document? storage file).map (place, ·)
  | .load source g file held =>
    (Book.document? source file).bind fun root => (l.recipient? g root held).map (·, root)
  | .deliver g root _ held => (l.recipient? g root held).map (·, root)
  | _ => none

variable {storage : Storage} {l : Library} {place : Nat} {b : Book}

/-- The book at a place has taken in a document. -/
def TakesIn (storage : Storage) (l : Library) (place : Nat) (root : Markup.Element)
    (l' : Library) (events : List Event) : Prop :=
  ∃ b, l.book? place = some b ∧ l' = l.setBook place (b.ingest storage root).1 ∧
    calls events = calls (b.ingest storage root).2

theorem TakesIn.behind {root : Markup.Element} {l' : Library} {events earlier : List Event}
    (h : TakesIn storage l place root l' events) (hearlier : calls earlier = []) :
    TakesIn storage l place root l' (earlier ++ events) := by
  obtain ⟨b, hb, hstate, hcalls⟩ := h
  exact ⟨b, hb, hstate, by rw [calls_append, hearlier, hcalls, List.nil_append]⟩

theorem deliver_cases (storage : Storage) (l : Library) (held : Option Nat) (g : Nat)
    (root : Markup.Element) (file : String) :
    (l.deliver storage held g root file).state = l ∨
      ∃ place, l.recipient? g root held = some place ∧
        TakesIn storage l place root (l.deliver storage held g root file).state
          (l.deliver storage held g root file).events := by
  rw [recipient?]
  obtain ⟨-, hturn⟩ | ⟨_, -, hturn⟩ | ⟨_, _, -, -, hturn⟩ |
      ⟨place, b, hhandler, hb, hheld, hturn⟩ := deliver_inv storage held g root file l
  · exact .inl (congrArg Turn.state hturn)
  · exact .inl (congrArg Turn.state hturn)
  · exact .inl (congrArg Turn.state hturn)
  · rw [hhandler, hturn]
    exact .inr ⟨place, if_neg hheld, b, hb, rfl, rfl⟩

theorem load_cases (storage source : Storage) (l : Library) (held : Option Nat) (g : Nat)
    (file : String) :
    (l.load storage source held g file).state = l ∨
      ∃ root place, Book.document? source file = some root ∧
        l.recipient? g root held = some place ∧
        TakesIn storage l place root (l.load storage source held g file).state
          (l.load storage source held g file).events := by
  rw [load, Book.document?]
  cases source.contents file with
  | error failure => exact .inl rfl
  | ok bytes =>
    simp only
    cases Markup.Element.ofBytes bytes with
    | error fault => exact .inl rfl
    | ok root =>
      obtain hstate | ⟨place, hplace, htaken⟩ := deliver_cases storage l held g root file
      · exact .inl hstate
      · exact .inr ⟨root, place, rfl, hplace, htaken.behind (calls_missEvents source file)⟩

/-- By whatever way a registration comes, its document is taken in by the book
it is for, or nothing happens. -/
theorem registers_cases (storage : Storage) (l : Library) {operation : Operation}
    (hoperation : operation.Registers) :
    (l.perform storage operation).state = l ∨
      ∃ place root, l.document? storage operation = some (place, root) ∧
        TakesIn storage l place root (l.perform storage operation).state
          (l.perform storage operation).events := by
  cases operation with
  | act place action =>
    rw [perform, act]
    cases hb : l.book? place with
    | none => exact .inl rfl
    | some b =>
      cases action with
      | ingest root => exact .inr ⟨place, root, rfl, b, hb, rfl, rfl⟩
      | loadRegistration file =>
        simp only [Book.perform]
        cases hdocument : Book.document? storage file with
        | none =>
          obtain ⟨failure, hturn⟩ := Book.loadRegistration_of_none (b := b) hdocument
          left
          rw [hturn]
          exact setBook_self hb
        | some root =>
          rw [Book.loadRegistration_of_document hdocument]
          refine .inr ⟨place, root, by rw [document?, hdocument]; rfl, b, hb, rfl, ?_⟩
          simp
      | _ => exact hoperation.elim
  | load source g file held =>
    obtain hstate | ⟨root, place, hroot, hplace, htaken⟩ := load_cases storage source l held g file
    · exact .inl hstate
    · exact .inr ⟨place, root, by rw [document?, hroot, Option.bind_some, hplace]; rfl, htaken⟩
  | deliver g root file held =>
    obtain hstate | ⟨place, hplace, htaken⟩ := deliver_cases storage l held g root file
    · exact .inl hstate
    · exact .inr ⟨place, root, by rw [document?, hplace]; rfl, htaken⟩
  | _ => exact hoperation.elim

/-- A registration that changes the text of a tag or the language in use of a
book calls all its listeners, unless it prefers a language that is not
registered. -/
theorem registration_told_iff (storage : Storage) (l : Library) (operation : Operation)
    (hoperation : operation.Registers) {place : Nat} {b b' : Book}
    (hb : l.book? place = some b)
    (hb' : (l.perform storage operation).state.book? place = some b')
    (hchanged : ¬b.SeesSame b') :
    ∃ root, l.document? storage operation = some (place, root) ∧
      ((∀ listener ∈ b.listeners, ∃ name,
          .changed listener.handle name ∈ (l.perform storage operation).events) ↔
        b.listeners = [] ∨ ∀ name, (Registration.ofElement root).preferred = some name →
          (b'.packs.files? name).isSome) := by
  have hsame : b.SeesSame b := ⟨fun _ => rfl, rfl⟩
  obtain hstate | ⟨p, root, hdocument, c, hc, hstate, hcalls⟩ :=
    registers_cases storage l hoperation
  · rw [hstate, hb] at hb'
    cases hb'
    exact absurd hsame hchanged
  · rw [hstate, book?_setBook hc] at hb'
    by_cases hp : place = p
    · subst hp
      rw [if_pos rfl] at hb'
      rw [hb] at hc
      cases hc
      cases hb'
      refine ⟨root, hdocument, ?_⟩
      simp only [← mem_calls, hcalls]
      simp only [mem_calls]
      exact Book.register_told_iff hchanged
    · rw [if_neg hp, hb] at hb'
      cases hb'
      exact absurd hsame hchanged

def twoFiles : Storage := fun file =>
  ⟨[], if file = "one" then .read (Utf8.encode "yes\tYes".toList)
    else if file = "two" then .read (Utf8.encode "yes\tAye".toList)
    else .absent⟩

def late (attributes : List (String × String)) : Markup.Element :=
  ⟨"Registration", [("type", "Language")], [⟨"Language", attributes,
    [⟨"Info", [("name", "en")], [⟨"Source", [], [], "two"⟩], ""⟩], ""⟩], ""⟩

def handIn (attributes : List (String × String)) : Operation :=
  .deliver 0 (late attributes) "late" none

/-- A book in English, attached, and with a listener. -/
def listening : Library :=
  (run twoFiles [.attach 0 0 false, .act 0 (.subscribe 7), .act 0 (.ingest (english "one"))]
    (fresh [64] 1)).state

theorem listening_book :
    ∃ b, listening.book? 0 = some b ∧ b.tags.lookup "yes" = some "Yes" ∧
      b.listeners = [⟨0, 7⟩] := by
  have hbook : (listening.book? 0).map (fun b => (b.tags.lookup "yes", b.listeners)) =
      some (some "Yes", [⟨0, 7⟩]) := by decide +kernel
  obtain ⟨b, hb, hfacts⟩ := Option.map_eq_some_iff.mp hbook
  exact ⟨b, hb, Prod.mk.inj hfacts⟩

theorem registration_told_late :
    ∃ b b', listening.book? 0 = some b ∧
      (listening.perform twoFiles (handIn [])).state.book? 0 = some b' ∧
      ¬b.SeesSame b' ∧ b.listeners = [⟨0, 7⟩] ∧
      ∃ name, .changed 7 name ∈ (listening.perform twoFiles (handIn [])).events := by
  have hafter : ((listening.perform twoFiles (handIn [])).state.book? 0).map
      (fun b => b.tags.lookup "yes") = some (some "Aye") := by decide +kernel
  have hdocument : listening.document? twoFiles (handIn []) = some (0, late []) := by
    decide +kernel
  obtain ⟨b, hb, hyes, hlisteners⟩ := listening_book
  obtain ⟨b', hb', hyes'⟩ := Option.map_eq_some_iff.mp hafter
  have hchanged : ¬b.SeesSame b' := by
    intro hsame
    have hlookup := hsame.1 "yes"
    rw [hyes, hyes'] at hlookup
    simp at hlookup
  obtain ⟨root, hroot, htold⟩ :=
    registration_told_iff twoFiles listening (handIn []) trivial hb hb' hchanged
  rw [hdocument] at hroot
  cases hroot
  have hpreferred : (Registration.ofElement (late [])).preferred = none := by decide
  have hmem : ⟨0, 7⟩ ∈ b.listeners := by
    rw [hlisteners]
    exact List.mem_singleton_self _
  refine ⟨b, b', hb, hb', hchanged, hlisteners, ?_⟩
  refine htold.mpr (.inr fun name hname => ?_) ⟨0, 7⟩ hmem
  rw [hpreferred] at hname
  cases hname

/-- A file for the language in use is loaded, and nobody is called: the document
prefers a language that nothing registers. -/
theorem change_unannounced :
    ∃ b b', listening.book? 0 = some b ∧
      (listening.perform twoFiles (handIn [("default", "xx")])).state.book? 0 = some b' ∧
      b.tags.lookup "yes" = some "Yes" ∧ b'.tags.lookup "yes" = some "Aye" ∧
      b.listeners = [⟨0, 7⟩] ∧
      ∀ name, .changed 7 name ∉
        (listening.perform twoFiles (handIn [("default", "xx")])).events := by
  have hafter : ((listening.perform twoFiles (handIn [("default", "xx")])).state.book? 0).map
      (fun b => b.tags.lookup "yes") = some (some "Aye") := by decide +kernel
  have hcalls : calls (listening.perform twoFiles (handIn [("default", "xx")])).events = [] := by
    decide +kernel
  obtain ⟨b, hb, hyes, hlisteners⟩ := listening_book
  obtain ⟨b', hb', hyes'⟩ := Option.map_eq_some_iff.mp hafter
  refine ⟨b, b', hb, hb', hyes, hyes', hlisteners, fun name hmem => ?_⟩
  have hcall := mem_calls.mpr hmem
  rw [hcalls] at hcall
  cases hcall

end Phrasebook.Library
