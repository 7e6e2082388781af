import Phrasebook.Proofs.Book.Start
import Phrasebook.Proofs.Library.Delivery

/-
  The packs of a book are the history of what was registered with it.

  A document that reaches a book is added to its packs, language by language and
  in document order; nothing else that is done with a library touches them.

  What is proved:
    1. `packFiles_ofElement` — the files of a language's pack that a document
       adds are those that stand under its name.
    2. `perform_of_taken`, `perform_of_not_taken` — one operation: the book takes
       in the document that is for it, and keeps its packs otherwise.
    3. `book_run` — the packs after a run are those before it with the entries of
       the documents taken in, and the language in use stays a registered one.
    4. `packs_history` — so the packs of a book of a library, from the library as
       it is made.
-/

namespace Phrasebook

open Registration

/-! ## The files that a document declares -/

/-- The files that a document declares for a language: what is in the `Source`
elements of the `Info` elements with its name, in document order. -/
def Markup.Element.declaredFiles (root : Markup.Element) (language : String) : List String :=
  let infos := (root.named "Language").flatMap (·.named "Info")
  ((infos.filter (·.attribute? "name" = some language)).flatMap (·.named "Source")).map (·.content)

theorem Registration.packFiles_map_under (name language : String) (files : List String) :
    packFiles (files.map (Entry.under name)) language =
      if name ≠ "" ∧ name = language then files else [] := by
  induction files with
  | nil => simp [packFiles]
  | cons file files ih =>
    rw [List.map_cons]
    by_cases hname : name = ""
    · rw [Entry.under, if_pos hname, packFiles_user, ih]
      simp [hname]
    · rw [Entry.under, if_neg hname, packFiles_pack, ih]
      by_cases hlanguage : name = language
      · subst hlanguage
        simp [hname]
      · simp [hlanguage]

theorem Registration.packFiles_infoEntries {language : String} (h : language ≠ "")
    (info : Markup.Element) :
    packFiles (infoEntries info) language =
      if info.attribute? "name" = some language then (info.named "Source").map (·.content)
      else [] := by
  have hentries : infoEntries info =
      ((info.named "Source").map (·.content)).map
        (Entry.under ((info.attribute? "name").getD "")) := by
    rw [infoEntries, List.map_map]
    rfl
  rw [hentries, packFiles_map_under]
  cases info.attribute? "name" with
  | none => simp
  | some name =>
    by_cases hname : name = language
    · simp [hname, h]
    · simp [hname]

theorem Registration.packFiles_flatMap {α : Type} (f : α → List Entry) (l : List α)
    (language : String) :
    packFiles (l.flatMap f) language = l.flatMap fun a => packFiles (f a) language := by
  induction l with
  | nil => rfl
  | cons a l ih => rw [List.flatMap_cons, packFiles_append, ih, List.flatMap_cons]

/-- A document adds the files to a pack that it declares for the language. -/
theorem Registration.packFiles_ofElement {language : String} (h : language ≠ "")
    (root : Markup.Element) :
    packFiles (ofElement root).entries language = root.declaredFiles language := by
  have hentries : (ofElement root).entries =
      ((root.named "Language").flatMap (·.named "Info")).flatMap infoEntries := by
    rw [List.flatMap_assoc]
    rfl
  rw [hentries, packFiles_flatMap, Markup.Element.declaredFiles]
  simp only [packFiles_infoEntries h]
  induction (root.named "Language").flatMap (·.named "Info") with
  | nil => rfl
  | cons info infos ih =>
    rw [List.flatMap_cons, ih]
    by_cases hname : info.attribute? "name" = some language
    · simp [hname]
    · simp [hname]

/-! ## One operation -/

namespace Book

variable {storage : Storage} {b : Book}

/-- No language is in use, or one that is registered. -/
def InStock (b : Book) : Prop := b.current = "" ∨ (b.packs.files? b.current).isSome

/-- The packs are kept, and so is the language in use, or one of theirs is. -/
def KeepsPacks (b b' : Book) : Prop :=
  b'.packs = b.packs ∧ (b'.current = b.current ∨ (b.packs.files? b'.current).isSome)

theorem InStock.kept (h : b.InStock) {b' : Book} (hkeeps : b.KeepsPacks b') : b'.InStock := by
  obtain ⟨hpacks, hcurrent | hsome⟩ := hkeeps
  · rw [InStock, hcurrent, hpacks]
    exact h
  · rw [InStock, hpacks]
    exact .inr hsome

theorem InStock.ingest (h : b.InStock) (storage : Storage) (root : Markup.Element) :
    (b.ingest storage root).1.InStock := by
  rw [InStock, Book.ingest]
  obtain ⟨name, -, hregisters, hstate⟩ | ⟨-, hstate⟩ :=
    register_cases storage (.ofElement root) b
  · rw [hstate]
    exact .inr hregisters
  · rw [hstate]
    refine h.imp id ?_
    intro hsome
    obtain ⟨files, hfiles⟩ := Option.isSome_iff_exists.mp hsome
    show ((b.packs.addAll (ofElement root).entries).files? b.current).isSome
    rw [Packs.files?_addAll_of_some hfiles]
    rfl

/-- Only documents are added to the packs. -/
theorem perform_keepsPacks {action : Action} (hingest : ∀ root, action ≠ .ingest root)
    (hfile : ∀ file root, action = .loadRegistration file → document? storage file ≠ some root) :
    b.KeepsPacks (b.perform storage action).state := by
  cases action with
  | loadRegistration file =>
    have hnone : document? storage file = none := by
      rw [Option.eq_none_iff_forall_ne_some]
      exact fun root => hfile file root rfl
    obtain ⟨failure, hturn⟩ := loadRegistration_of_none (b := b) hnone
    rw [perform, hturn]
    exact ⟨rfl, .inl rfl⟩
  | ingest root => exact absurd rfl (hingest root)
  | load scope file =>
    rw [perform, load_state]
    exact ⟨rfl, .inl rfl⟩
  | switch name =>
    rw [perform]
    cases hfiles : b.packs.files? name with
    | none =>
      rw [switch_of_none storage hfiles]
      exact ⟨rfl, .inl rfl⟩
    | some files =>
      rw [(switch_of_some storage hfiles).2]
      exact ⟨rfl, .inr (Option.isSome_iff_exists.mpr ⟨files, hfiles⟩)⟩
  | text | resolve | addUserTag | clearUserTags | subscribe | unsubscribe | setFallback
    | clearFallback => exact ⟨rfl, .inl rfl⟩

end Book

namespace Library

variable {storage : Storage} {l : Library} {operation : Operation} {place : Nat} {b b' : Book}
  {root : Markup.Element}

/-- The document that an operation has for the book at a place. -/
def taken? (storage : Storage) (place : Nat) (operation : Operation) (l : Library) :
    Option Markup.Element :=
  (l.document? storage operation).bind fun (p, root) => if p = place then some root else none

theorem taken?_eq_some_iff :
    l.taken? storage place operation = some root ↔
      l.document? storage operation = some (place, root) := by
  rw [taken?]
  cases l.document? storage operation with
  | none => simp
  | some pair =>
    obtain ⟨p, r⟩ := pair
    by_cases hp : p = place
    · simp [hp]
    · simp [hp]

theorem recipient?_eq_some_iff {g : Nat} {held : Option Nat} :
    l.recipient? g root held = some place ↔
      (l.desk g)[root.kind]? = some (.book place) ∧ held ≠ some place := by
  rw [recipient?]
  split
  · next p hp =>
    rw [hp]
    by_cases hheld : held = some p
    · rw [if_pos hheld, hheld]
      simp
    · rw [if_neg hheld]
      constructor
      · rintro ⟨⟩
        exact ⟨rfl, hheld⟩
      · rintro ⟨⟨⟩, -⟩
        rfl
  · next hnot =>
    simp only [reduceCtorEq, false_iff, not_and]
    intro hbook
    exact absurd hbook (hnot place)

theorem registers_of_taken (h : l.taken? storage place operation = some root) :
    operation.Registers := by
  rw [taken?_eq_some_iff] at h
  cases operation with
  | act p action =>
    cases action with
    | ingest | loadRegistration => trivial
    | _ => cases h
  | load | deliver => trivial
  | _ => cases h

/-- The book takes in the document that is for it, and the operation succeeds. -/
theorem perform_of_taken (h : l.taken? storage place operation = some root)
    (hb : l.book? place = some b) :
    (l.perform storage operation).state = l.setBook place (b.ingest storage root).1 ∧
      ∀ failure, (l.perform storage operation).answer ≠ .outcome (.error failure) := by
  rw [taken?_eq_some_iff] at h
  cases operation with
  | act p action =>
    cases action with
    | ingest r =>
      cases h
      rw [perform, act, hb]
      exact ⟨rfl, by simp [Book.perform]⟩
    | loadRegistration file =>
      obtain ⟨r, hroot, heq⟩ := Option.map_eq_some_iff.mp h
      cases heq
      simp only [perform, act, hb, Book.perform, Book.loadRegistration_of_document hroot]
      exact ⟨trivial, by simp⟩
    | _ => cases h
  | load source g file held =>
    obtain ⟨r, hroot, hrecipient⟩ := Option.bind_eq_some_iff.mp h
    obtain ⟨p, hp, heq⟩ := Option.map_eq_some_iff.mp hrecipient
    cases heq
    obtain ⟨hhandler, hheld⟩ := recipient?_eq_some_iff.mp hp
    rw [Book.document?_eq] at hroot
    cases hdocument : source.document file with
    | error failure =>
      rw [hdocument] at hroot
      cases hroot
    | ok r =>
      rw [hdocument] at hroot
      cases hroot
      simp only [perform, settle, load_eq, hdocument, deliver_of_book hhandler hb hheld]
      exact ⟨trivial, by simp⟩
  | deliver g r file held =>
    obtain ⟨p, hp, heq⟩ := Option.map_eq_some_iff.mp h
    cases heq
    obtain ⟨hhandler, hheld⟩ := recipient?_eq_some_iff.mp hp
    simp only [perform, settle, deliver_of_book hhandler hb hheld]
    exact ⟨trivial, by simp⟩
  | _ => cases h

/-- Where the flag of a book is written, no book changes in anything else. -/
theorem book_of_flagged {p : Nat} {c : Book} {flag : Bool} (hc : l.book? p = some c)
    (h : (l.setBook p { c with attached := flag }).book? place = some b') :
    ∃ (b : Book) (flag : Bool), l.book? place = some b ∧ b' = { b with attached := flag } := by
  rw [book?_setBook hc] at h
  split at h
  · next hp =>
    cases h
    exact ⟨c, flag, by rw [hp, hc], rfl⟩
  · exact ⟨b', _, h, rfl⟩

theorem attach_book {p g : Nat} {held : Bool} (h : (l.attach p g held).1.book? place = some b') :
    ∃ (b : Book) (flag : Bool), l.book? place = some b ∧ b' = { b with attached := flag } := by
  obtain ⟨-, hstate⟩ | ⟨-, -, c, hc, hstate⟩ := attach_inv l p g held
  · rw [hstate] at h
    exact ⟨b', _, h, rfl⟩
  · rw [hstate] at h
    exact book_of_flagged (l := l.register g registrationKind (.book p)) hc h

theorem detach_book {p g : Nat} (h : (l.detach p g).1.book? place = some b') :
    ∃ (b : Book) (flag : Bool), l.book? place = some b ∧ b' = { b with attached := flag } := by
  obtain ⟨-, hstate⟩ | ⟨-, c, hc, hstate⟩ := detach_inv l p g
  · rw [hstate] at h
    exact ⟨b', _, h, rfl⟩
  · rw [hstate] at h
    exact book_of_flagged (l := (l.unregister g registrationKind).2) hc h

theorem perform_of_not_taken (h : l.taken? storage place operation = none)
    (hb' : (l.perform storage operation).state.book? place = some b') :
    ∃ b : Book, l.book? place = some b ∧ b.KeepsPacks b' := by
  have hkept : ∀ b : Book, b.KeepsPacks b := fun b => ⟨rfl, .inl rfl⟩
  have hnot : ∀ root, l.document? storage operation ≠ some (place, root) := by
    intro root hroot
    rw [taken?_eq_some_iff.mpr hroot] at h
    cases h
  by_cases hregisters : operation.Registers
  · -- a document that comes is for another place
    obtain hstate | ⟨p, root, hdocument, c, hc, hstate, -⟩ :=
      registers_cases storage l hregisters
    · rw [hstate] at hb'
      exact ⟨b', hb', hkept b'⟩
    · have hp : place ≠ p := by
        rintro rfl
        exact hnot root hdocument
      rw [hstate, book?_setBook hc, if_neg hp] at hb'
      exact ⟨b', hb', hkept b'⟩
  · cases operation with
    | act p action =>
      rw [perform, act] at hb'
      cases hc : l.book? p with
      | none =>
        rw [hc] at hb'
        exact ⟨b', hb', hkept b'⟩
      | some c =>
        rw [hc] at hb'
        simp only [book?_setBook hc] at hb'
        by_cases hp : place = p
        · subst hp
          rw [if_pos rfl] at hb'
          cases hb'
          refine ⟨c, hc, Book.perform_keepsPacks ?_ ?_⟩
          · rintro root rfl
            exact hregisters trivial
          · rintro file root rfl
            exact absurd trivial hregisters
        · rw [if_neg hp] at hb'
          exact ⟨b', hb', hkept b'⟩
    | drop p =>
      rcases join_getElem?_set hb' with hnone | hb'
      · cases hnone
      · exact ⟨b', hb', hkept b'⟩
    | attach p g held =>
      obtain ⟨b, flag, hb, rfl⟩ := attach_book hb'
      exact ⟨b, hb, rfl, .inl rfl⟩
    | detach p g =>
      obtain ⟨b, flag, hb, rfl⟩ := detach_book hb'
      exact ⟨b, hb, rfl, .inl rfl⟩
    | register | unregister | knows => exact ⟨b', hb', hkept b'⟩
    | load | deliver => exact absurd trivial hregisters

/-! ## Runs -/

/-- The documents that the book at a place takes in over a run, in order. -/
def documents (storage : Storage) (place : Nat) : List Operation → Library → List Markup.Element
  | [], _ => []
  | operation :: rest, l =>
    (l.taken? storage place operation).toList ++
      documents storage place rest (l.perform storage operation).state

def declaredBy (documents : List Markup.Element) : List Entry :=
  documents.flatMap fun root => (ofElement root).entries

theorem declaredBy_append (documents documents' : List Markup.Element) :
    declaredBy (documents ++ documents') = declaredBy documents ++ declaredBy documents' :=
  List.flatMap_append

theorem packFiles_declaredBy {language : String} (h : language ≠ "")
    (documents : List Markup.Element) :
    packFiles (declaredBy documents) language =
      documents.flatMap fun root => root.declaredFiles language := by
  rw [declaredBy, packFiles_flatMap]
  simp only [packFiles_ofElement h]

theorem packFiles_declaredBy_unnamed (documents : List Markup.Element) :
    packFiles (declaredBy documents) "" = [] := by
  apply packFiles_unnamed
  intro entry hentry
  obtain ⟨root, -, hentry⟩ := List.mem_flatMap.mp hentry
  exact named_of_mem_ofElement hentry

theorem run_append_state (storage : Storage) (before after : List Operation) (l : Library) :
    (run storage (before ++ after) l).state =
      (run storage after (run storage before l).state).state := by
  induction before generalizing l with
  | nil => rfl
  | cons operation before ih => exact ih (l.perform storage operation).state

/-- One operation adds the document that it has for a book to the packs. -/
theorem book_perform (hb' : (l.perform storage operation).state.book? place = some b') :
    ∃ b : Book, l.book? place = some b ∧
      b'.packs = b.packs.addAll (declaredBy (l.taken? storage place operation).toList) ∧
      (b.InStock → b'.InStock) := by
  cases htaken : l.taken? storage place operation with
  | none =>
    obtain ⟨b, hb, hkeeps⟩ := perform_of_not_taken htaken hb'
    exact ⟨b, hb, hkeeps.1, fun h => h.kept hkeeps⟩
  | some root =>
    cases hb : l.book? place with
    | none =>
      -- a document finds a book there, or nothing happens
      have hdocument := taken?_eq_some_iff.mp htaken
      obtain hstate | ⟨p, r, hother, c, hc, -, -⟩ :=
        registers_cases storage l (registers_of_taken htaken)
      · rw [hstate, hb] at hb'
        cases hb'
      · rw [hdocument] at hother
        cases hother
        rw [hb] at hc
        cases hc
    | some b =>
      rw [(perform_of_taken htaken hb).1, book?_setBook hb, if_pos rfl] at hb'
      cases hb'
      refine ⟨b, rfl, ?_, fun h => h.ingest storage root⟩
      rw [Book.packs_ingest, declaredBy, Option.toList_some, List.flatMap_singleton]

/-- The packs of a book after a run: the documents that it took in have been
added to what it had before. -/
theorem book_run {operations : List Operation}
    (hb' : (run storage operations l).state.book? place = some b') :
    ∃ b : Book, l.book? place = some b ∧
      b'.packs = b.packs.addAll (declaredBy (documents storage place operations l)) ∧
      (b.InStock → b'.InStock) := by
  induction operations generalizing l with
  | nil => exact ⟨b', hb', rfl, id⟩
  | cons operation operations ih =>
    obtain ⟨between, hbetween, hlater, hstock'⟩ := ih hb'
    obtain ⟨b, hb, hfirst, hstock⟩ := book_perform hbetween
    refine ⟨b, hb, ?_, fun h => hstock' (hstock h)⟩
    rw [hlater, hfirst, ← Packs.addAll_append, ← declaredBy_append]
    rfl

theorem book_fresh {bounds : List Nat} {desks : Nat}
    (h : (fresh bounds desks).book? place = some b) : ∃ maxPasses, b = { maxPasses } := by
  rw [book?, fresh, List.getElem?_map] at h
  cases hbound : bounds[place]? with
  | none =>
    rw [hbound] at h
    cases h
  | some maxPasses =>
    rw [hbound] at h
    cases h
    exact ⟨maxPasses, rfl⟩

/-- Whatever was done with a fresh library, the packs of a book have the files
that the documents it took in declare for each language, in order. The language
in use is one of theirs; there is none without a name, and none without a file.
Packs have grown at their ends, and an operation that brings no document, or
fails, leaves them alone. -/
theorem packs_history (storage : Storage) (bounds : List Nat) (desks : Nat)
    (operations : List Operation) (place : Nat) (b : Book)
    (hb : (run storage operations (fresh bounds desks)).state.book? place = some b) :
    (b.current = "" ∨ (b.packs.files? b.current).isSome) ∧
    b.packs.files? "" = none ∧
    (∀ language, b.packs.files? language ≠ some []) ∧
    (∀ language, language ≠ "" →
      b.packs.files? language =
        let files := (documents storage place operations (fresh bounds desks)).flatMap
          fun root => root.declaredFiles language
        if files = [] then none else some files) ∧
    (∀ before after, operations = before ++ after →
      ∃ earlier, (run storage before (fresh bounds desks)).state.book? place = some earlier ∧
        ∀ language files, earlier.packs.files? language = some files →
          ∃ more, b.packs.files? language = some (files ++ more)) ∧
    ∀ before operation after, operations = before ++ operation :: after →
      let l := (run storage before (fresh bounds desks)).state
      let turn := l.perform storage operation
      ∃ earlier later : Book, l.book? place = some earlier ∧
        turn.state.book? place = some later ∧
        (l.taken? storage place operation = none → later.packs = earlier.packs) ∧
        ((¬operation.Registers ∨ ∃ failure, turn.answer = .outcome (.error failure)) →
          l.taken? storage place operation = none) := by
  let l := fresh bounds desks
  -- the whole of the packs is what the documents declare
  obtain ⟨made, hmade, hpacks, hstock⟩ := book_run hb
  obtain ⟨maxPasses, rfl⟩ := book_fresh hmade
  have hfiles : ∀ language, b.packs.files? language =
      if packFiles (declaredBy (documents storage place operations l)) language = [] then none
      else some (packFiles (declaredBy (documents storage place operations l)) language) := by
    intro language
    rw [hpacks]
    exact Packs.files?_empty_addAll _ language
  refine ⟨hstock (.inl rfl), ?unnamed, ?nonempty, ?declared, ?grown, ?untouched⟩
  case unnamed => rw [hfiles, packFiles_declaredBy_unnamed, if_pos rfl]
  case nonempty =>
    intro language
    rw [hfiles]
    split
    · exact nofun
    · next hne =>
      intro hnil
      exact hne (Option.some.inj hnil)
  case declared =>
    intro language hlanguage
    rw [hfiles, packFiles_declaredBy hlanguage]
  case grown =>
    rintro before after rfl
    rw [run_append_state] at hb
    obtain ⟨earlier, hearlier, hlater, -⟩ := book_run hb
    refine ⟨earlier, hearlier, ?_⟩
    intro language files hfiles
    rw [hlater]
    exact ⟨_, Packs.files?_addAll_of_some hfiles _⟩
  case untouched =>
    rintro before operation after rfl l turn
    rw [run_append_state, run] at hb
    obtain ⟨later, hlater, -⟩ := book_run hb
    obtain ⟨earlier, hearlier, hadded, -⟩ := book_perform hlater
    refine ⟨earlier, later, hearlier, hlater, ?_, ?_⟩
    · intro hnone
      rw [hadded, hnone]
      rfl
    · intro hquiet
      rw [Option.eq_none_iff_forall_ne_some]
      intro root htaken
      rcases hquiet with hnot | ⟨failure, hfailure⟩
      · exact hnot (registers_of_taken htaken)
      · exact (perform_of_taken htaken hearlier).2 failure hfailure

theorem packs_history_english :
    ∃ b, (run oneFile twoDocuments (fresh [64] 1)).state.book? 0 = some b ∧
      b.current = "en" ∧ b.packs.files? "en" = some ["one", "two"] ∧
      b.packs.files? "" = none := by
  have hrun : ((run oneFile twoDocuments (fresh [64] 1)).state.book? 0).map (·.current) =
      some "en" := by decide +kernel
  have hfiles : (documents oneFile 0 twoDocuments (fresh [64] 1)).flatMap
      (fun root => root.declaredFiles "en") = ["one", "two"] := by decide +kernel
  obtain ⟨b, hb, hcurrent⟩ := Option.map_eq_some_iff.mp hrun
  obtain ⟨-, hunnamed, -, hdeclared, -⟩ :=
    packs_history oneFile [64] 1 twoDocuments 0 b hb
  refine ⟨b, hb, hcurrent, ?_, hunnamed⟩
  rw [hdeclared "en" (by decide), hfiles]
  rfl

end Library

end Phrasebook
