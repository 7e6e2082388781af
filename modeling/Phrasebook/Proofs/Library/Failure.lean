import Phrasebook.Proofs.Library.Delivery

/-
  What fails leaves everything as it was.

  A file is read and parsed, a language looked up and a handler found before
  anything is written, so that a failure on the way has changed nothing, and
  all that is seen of it is what is put on record.

  What is proved:
    1. `Book.perform_failed` — a book is the same after an action that failed,
       and nobody was called or asked.
    2. `Book.load_of_fault` — a tag file with malformed markup is no failure,
       and leaves a book the same as well.
    3. `deliver_failed`, `load_failed` — the same of what is handed in at a desk,
       and which failures come from a handler.
    4. `failed_unchanged` — so for all operations on a library and its books.
-/

namespace Phrasebook

def Failure.ByHandler : Failure → Prop
  | .refused _ | .bookDropped | .bookHeld => True
  | _ => False

theorem Storage.not_byHandler_of_document {storage : Storage} {file : String} {failure : Failure}
    (h : storage.document file = .error failure) : ¬failure.ByHandler := by
  rcases Storage.document_error_iff.mp h with ⟨-, rfl⟩ | ⟨_, -, rfl⟩ | ⟨_, _, -, -, rfl⟩
  · exact id
  · exact id
  · exact id

theorem Storage.not_byHandler_of_contents {storage : Storage} {file : String} {failure : Failure}
    (h : storage.contents file = .error failure) : ¬failure.ByHandler := by
  have hdocument : storage.document file = .error failure := by
    rw [document, h]
  exact not_byHandler_of_document hdocument

/-! ## Books -/

namespace Book

variable {storage : Storage} {b : Book} {file : String}

theorem load_of_error {failure : Failure} (h : storage.contents file = .error failure)
    (scope : Scope) :
    b.load storage scope file =
      ⟨.error failure, b, storage.missEvents file ++ [.logged (.failed failure)]⟩ := by
  simp only [load, TagFile.contents, h]

theorem load_of_fault {bytes : List UInt8} {fault : Markup.Fault}
    (hbytes : storage.contents file = .ok bytes)
    (hfault : (TagFile.Format.ofName file).read bytes = .error fault) (scope : Scope) :
    b.load storage scope file =
      ⟨.ok (), b, storage.missEvents file ++ [.logged (.malformedTags file fault)]⟩ := by
  simp only [load, TagFile.contents, hbytes, hfault]

/-- An action that fails has changed nothing, and nobody was called or asked. -/
theorem perform_failed {action : Action} {failure : Failure}
    (h : (b.perform storage action).answer = .outcome (.error failure)) :
    (b.perform storage action).state = b ∧ OnlyRecords (b.perform storage action).events ∧
      ¬failure.ByHandler := by
  cases action with
  | loadRegistration file =>
    simp only [perform, loadRegistration_eq] at h ⊢
    cases hroot : storage.document file with
    | error reason =>
      rw [hroot] at h
      cases h
      exact ⟨rfl, onlyRecords_tried storage file _, Storage.not_byHandler_of_document hroot⟩
    | ok root =>
      rw [hroot] at h
      cases h
  | load scope file =>
    simp only [perform] at h ⊢
    cases hcontents : storage.contents file with
    | error reason =>
      rw [load_of_error hcontents] at h ⊢
      cases h
      exact ⟨rfl, onlyRecords_tried storage file _, Storage.not_byHandler_of_contents hcontents⟩
    | ok bytes =>
      -- a file that can be read is no failure, whatever is in it
      have hok : (b.load storage scope file).answer.isOk = storage.readable file :=
        isOk_load scope file
      rw [Reply.outcome.inj h, Storage.readable, hcontents] at hok
      cases hok
  | switch name =>
    simp only [perform, switch] at h ⊢
    cases hfiles : b.packs.files? name with
    | none =>
      rw [hfiles] at h
      cases h
      refine ⟨rfl, ?_, id⟩
      intro event hevent
      exact ⟨_, List.mem_singleton.mp hevent⟩
    | some files =>
      rw [hfiles] at h
      cases h
  | ingest | text | resolve | addUserTag | clearUserTags | subscribe | unsubscribe
    | setFallback | clearFallback => cases h

end Book

/-! ## Desks -/

namespace Library

/-- The handler that an operation calls: that of the desk for the kind of the
document which is handed in. -/
def called? (operation : Operation) (l : Library) : Option Handler :=
  match operation with
  | .load source g file _ =>
    (source.document file).toOption.bind fun root => (l.desk g)[root.kind]?
  | .deliver g root _ _ => (l.desk g)[root.kind]?
  | _ => none

/-- The place of a book that somebody holds while something is handed in. -/
def Operation.held? : Operation → Option Nat
  | .load _ _ _ held => held
  | .deliver _ _ _ held => held
  | _ => none

variable {storage source : Storage} {l : Library} {held : Option Nat} {g : Nat}
  {root : Markup.Element} {file : String} {failure : Failure}

/-- What is known of a failure: the handler that was called, if one was, has
reported it, and a book that was called is gone or held. -/
structure Failed (l : Library) (handler : Option Handler) (held : Option Nat) (failure : Failure)
    (l' : Library) (events : List Event) : Prop where
  same : l' = l
  byHandler_iff : failure.ByHandler ↔ handler.isSome
  records : handler = none → OnlyRecords events
  book : ∀ place, handler = some (.book place) →
    (l.book? place = none ∧ failure = .bookDropped ∨ held = some place ∧ failure = .bookHeld) ∧
      OnlyRecords events

theorem deliver_failed (h : (l.deliver storage held g root file).answer = .error failure) :
    Failed l (l.desk g)[root.kind]? held failure (l.deliver storage held g root file).state
      (l.deliver storage held g root file).events := by
  obtain ⟨hnone, hturn⟩ | ⟨recorder, hrecorder, hturn⟩ |
      ⟨place, reason, hbook, hreason, hturn⟩ | ⟨place, b, -, -, -, hturn⟩ :=
    deliver_inv storage held g root file l
  all_goals rw [hturn] at h ⊢
  · cases h
    rw [hnone]
    exact ⟨rfl, by simp [Failure.ByHandler], fun _ => onlyRecords_nil, nofun⟩
  · rw [Recorder.answer] at h
    split at h
    · cases h
      rw [hrecorder]
      exact ⟨rfl, by simp [Failure.ByHandler], nofun, nofun⟩
    · cases h
  · cases h
    rw [hbook]
    refine ⟨rfl, ?_, nofun, ?_⟩
    · rcases hreason with ⟨-, rfl⟩ | ⟨-, rfl⟩
      · simp [Failure.ByHandler]
      · simp [Failure.ByHandler]
    · rintro _ ⟨⟩
      exact ⟨hreason, onlyRecords_nil⟩
  · cases h

theorem load_failed (h : (l.load storage source held g file).answer = .error failure) :
    Failed l ((source.document file).toOption.bind fun root => (l.desk g)[root.kind]?) held failure
      (l.load storage source held g file).state (l.load storage source held g file).events := by
  rw [load_eq] at h ⊢
  have htried := onlyRecords_missEvents source file
  cases hroot : source.document file with
  | error reason =>
    rw [hroot] at h
    cases h
    have hreads := Storage.not_byHandler_of_document hroot
    exact ⟨rfl, iff_of_false hreads (by simp [Except.toOption]), fun _ => htried, nofun⟩
  | ok root =>
    rw [hroot] at h
    have hfailed := deliver_failed h
    exact ⟨hfailed.same, hfailed.byHandler_iff, fun hnone => htried.append (hfailed.records hnone),
      fun place hbook => ⟨(hfailed.book place hbook).1, htried.append (hfailed.book place hbook).2⟩⟩

theorem perform_failed {operation : Operation}
    (h : (l.perform storage operation).answer = .outcome (.error failure)) :
    Failed l (l.called? operation) operation.held? failure
      (l.perform storage operation).state (l.perform storage operation).events := by
  cases operation with
  | act place action =>
    rw [perform, act] at h ⊢
    cases hb : l.book? place with
    | none =>
      rw [hb] at h
      cases h
    | some b =>
      rw [hb] at h
      obtain ⟨hstate, hrecords, hreads⟩ := Book.perform_failed h
      simp only [hstate, setBook_self hb]
      exact ⟨rfl, iff_of_false hreads (by simp [called?]), fun _ => hrecords, by simp [called?]⟩
  | load source g file held => exact load_failed (Book.Reply.outcome.inj h)
  | deliver g root file held => exact deliver_failed (Book.Reply.outcome.inj h)
  | _ => cases h

/-- An action of a book, or an operation on a library, that fails has changed
nothing: no listener and no fallback was called, and unless a handler reports the
failure none was called either. A book behind the handler was gone or held, and
nobody else was called. A tag file with malformed markup changes nothing either. -/
theorem failed_unchanged (storage : Storage) :
    (∀ (b : Book) (action : Book.Action) (failure : Failure),
      (b.perform storage action).answer = .outcome (.error failure) →
      (b.perform storage action).state = b ∧ OnlyRecords (b.perform storage action).events) ∧
    (∀ (b : Book) (scope : Scope) (file : String) (bytes : List UInt8) (fault : Markup.Fault),
      storage.contents file = .ok bytes → (TagFile.Format.ofName file).read bytes = .error fault →
      (b.load storage scope file).answer = .ok () ∧ (b.load storage scope file).state = b ∧
        OnlyRecords (b.load storage scope file).events) ∧
    ∀ (l : Library) (operation : Operation) (failure : Failure),
      let turn := l.perform storage operation
      turn.answer = .outcome (.error failure) →
      turn.state = l ∧
      (¬failure.ByHandler → l.called? operation = none ∧ OnlyRecords turn.events) ∧
      ∀ place, l.called? operation = some (.book place) →
        (l.book? place = none ∧ failure = .bookDropped ∨
          operation.held? = some place ∧ failure = .bookHeld) ∧ OnlyRecords turn.events := by
  refine ⟨?action, ?fault, ?operation⟩
  case action =>
    intro b action failure h
    obtain ⟨hstate, hrecords, -⟩ := Book.perform_failed h
    exact ⟨hstate, hrecords⟩
  case fault =>
    intro b scope file bytes fault hbytes hfault
    rw [Book.load_of_fault hbytes hfault]
    exact ⟨rfl, rfl, onlyRecords_tried storage file _⟩
  case operation =>
    intro l operation failure turn h
    have hfailed := perform_failed h
    refine ⟨hfailed.same, ?_, hfailed.book⟩
    intro hreads
    have hnone : l.called? operation = none := by
      by_contra hcalled
      exact hreads (hfailed.byHandler_iff.mpr (Option.isSome_iff_ne_none.mpr hcalled))
    exact ⟨hnone, hfailed.records hnone⟩

/-- A recorder that refuses what has no text. -/
def strict : Recorder where
  name := "strict"
  note := Markup.Element.name
  refusal? root file := if root.content = "" then some ("nothing in " ++ file) else none

/-- A desk whose book is gone, with a recorder that refuses what it gets. -/
def deserted : Library :=
  (run packed [.attach 0 0 false, .register 0 "Skin" strict, .drop 0] (fresh [64] 1)).state

theorem failed_unchanged_deserted :
    let gone := deserted.perform packed (.load packed 0 "packs.xml" none)
    let refused := deserted.perform packed (.load packed 0 "skin.xml" none)
    let unknown := ({} : Book).perform packed (.switch "en")
    let malformed := ({} : Book).load packed .language "broken.xml"
    gone.answer = .outcome (.error .bookDropped) ∧ gone.state = deserted ∧
      OnlyRecords gone.events ∧
      refused.answer = .outcome (.error (.refused "nothing in skin.xml")) ∧
      refused.state = deserted ∧
      unknown.answer = .outcome (.error (.unknownLanguage "en")) ∧ unknown.state = {} ∧
      OnlyRecords unknown.events ∧ malformed.answer = .ok () ∧ malformed.state = {} := by
  intro gone refused unknown malformed
  have hgone : gone.answer = .outcome (.error .bookDropped) :=
    congrArg Book.Reply.outcome
      (by decide +kernel : (deserted.load packed packed none 0 "packs.xml").answer = _)
  have hrefused : refused.answer = .outcome (.error (.refused "nothing in skin.xml")) :=
    congrArg Book.Reply.outcome
      (by decide +kernel : (deserted.load packed packed none 0 "skin.xml").answer = _)
  have hcalled : deserted.called? (.load packed 0 "packs.xml" none) = some (.book 0) := by
    decide +kernel
  have hparsed : Markup.Element.ofBytes (Utf8.encode "<R>".toList) = .error .illFormed := by
    decide +kernel
  have hfault : (TagFile.Format.ofName "broken.xml").read (Utf8.encode "<R>".toList) =
      .error .illFormed := by
    have hformat : TagFile.Format.ofName "broken.xml" = .markup := by decide
    rw [hformat, TagFile.Format.read, TagFile.ofMarkup, hparsed]
    rfl
  obtain ⟨haction, hmalformed, hoperation⟩ := failed_unchanged packed
  obtain ⟨hstate, -, hbook⟩ := hoperation deserted _ _ hgone
  obtain ⟨hunknown, hrecords⟩ := haction {} (.switch "en") _ rfl
  obtain ⟨hok, hsame, -⟩ := hmalformed {} .language "broken.xml" _ _ rfl hfault
  exact ⟨hgone, hstate, (hbook 0 hcalled).2, hrefused, (hoperation deserted _ _ hrefused).1,
    rfl, hunknown, hrecords, hok, hsame⟩

end Library

end Phrasebook
