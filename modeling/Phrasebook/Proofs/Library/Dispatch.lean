import Phrasebook.Proofs.Latest
import Phrasebook.Proofs.Library.Failure
import Phrasebook.Proofs.Library.History

/-
  Which handler a resource reaches.

  A desk is what was done to it: handlers are registered over one another and
  taken away, and a book does both, under the kind of registrations, when it is
  attached and detached. The operations of a run are kept with the library that
  they found, since a book that is attached already installs nothing.

  What is proved:
    1. `desks_perform` — one operation: it installs a handler at one desk,
       removes those of one kind from one desk, or leaves the desks alone.
    2. `handler?_perform_iff`, `handler?_run_iff` — a desk has the handler that
       was installed last, unless it has been removed since.
    3. `calledOnce_handle` — what a handler that is called answers, who gets
       something, and what stays.
    4. `dispatch_history` — so after any run a resource that is handed in calls
       the standing handler of its kind once, and otherwise none.
-/

namespace Phrasebook

/-! ## What recorders get -/

/-- What an event has of a recorder: its name, its note of the root, and the file. -/
def Event.receipt? : Event → Option (String × String × String)
  | .handled name note file => some (name, note, file)
  | _ => none

def receipts (events : List Event) : List (String × String × String) :=
  events.filterMap Event.receipt?

theorem receipts_append (events events' : List Event) :
    receipts (events ++ events') = receipts events ++ receipts events' :=
  List.filterMap_append

theorem OnlyRecords.receipts_eq {events : List Event} (h : OnlyRecords events) :
    receipts events = [] := by
  rw [receipts, List.filterMap_eq_nil_iff]
  intro event hevent
  obtain ⟨record, rfl⟩ := h event hevent
  rfl

/-- Events that are the paths tried for a file in vain. -/
def OnlyMisses (events : List Event) : Prop :=
  ∀ event ∈ events, ∃ miss, event = .logged (.missed miss)

theorem onlyMisses_nil : OnlyMisses [] := by
  intro event h
  cases h

theorem onlyMisses_missEvents (storage : Storage) (file : String) :
    OnlyMisses (storage.missEvents file) := by
  intro event h
  obtain ⟨miss, -, rfl⟩ := List.mem_map.mp h
  exact ⟨miss, rfl⟩

theorem OnlyMisses.receipts_eq {events : List Event} (h : OnlyMisses events) :
    receipts events = [] := by
  apply OnlyRecords.receipts_eq
  intro event hevent
  obtain ⟨miss, rfl⟩ := h event hevent
  exact ⟨.missed miss, rfl⟩

namespace Book

theorem receipts_announce (b : Book) : receipts b.announce = [] := by
  rw [receipts, List.filterMap_eq_nil_iff]
  intro event hevent
  obtain ⟨listener, -, rfl⟩ := List.mem_map.mp hevent
  rfl

theorem receipts_switch (storage : Storage) (name : String) (b : Book) :
    receipts (b.switch storage name).events = [] := by
  rw [switch]
  cases b.packs.files? name with
  | none => rfl
  | some files =>
    let cleared : Book := { b with tags := b.tags.write .clearLanguage, current := name }
    have hloaded := (onlyRecords_loadAll storage .language files cleared).receipts_eq
    show receipts ((loadAll storage .language files cleared).2 ++
      .logged (.switched name) :: (loadAll storage .language files cleared).1.announce) = []
    rw [receipts_append, hloaded, List.nil_append]
    exact receipts_announce _

theorem receipts_ingest (storage : Storage) (root : Markup.Element) (b : Book) :
    receipts (b.ingest storage root).2 = [] := by
  have haccepted := onlyRecords_acceptAll storage (Registration.ofElement root).entries b
  rw [ingest, register]
  split
  · rw [receipts_append, haccepted.receipts_eq, receipts_switch]
    rfl
  · split
    · rw [receipts_append, haccepted.receipts_eq, receipts_announce]
      rfl
    · exact haccepted.receipts_eq

end Book

namespace Handler

/-- The answers that a handler has to a root out of a file. A recorder has one of
its own; a book that does not take a document in says why. -/
def answers (root : Markup.Element) (file : String) : Handler → List (Except Failure Unit)
  | .recorder r => [r.answer root file]
  | .book _ => [.ok (), .error .bookDropped, .error .bookHeld]

/-- What recorders get if a handler is called once. -/
def receipts (root : Markup.Element) (file : String) : Handler → List (String × String × String)
  | .recorder r => [(r.name, r.note root, file)]
  | .book _ => []

end Handler

namespace Library

variable {storage : Storage} {l initial : Library} {operation : Operation} {g : Nat}
  {kind : String} {handler : Handler} {held : Option Nat} {root : Markup.Element}
  {file : String} {failure : Failure}

/-! ## What one operation does to the desks -/

/-- An operation installs a handler for a kind at a desk. A book is installed by
an attachment that is carried out. -/
inductive Installs (l : Library) (g : Nat) : Operation → String → Handler → Prop where
  | register (kind : String) (recorder : Recorder) :
    Installs l g (.register g kind recorder) kind (.recorder recorder)
  | attach (place : Nat) (hflag : l.flag? place = some false) :
    Installs l g (.attach place g false) registrationKind (.book place)

/-- An operation takes whatever handler there is for a kind from a desk. -/
inductive Removes (l : Library) (g : Nat) : Operation → String → Prop where
  | unregister (kind : String) : Removes l g (.unregister g kind) kind
  | detach (place : Nat) (hflag : l.flag? place = some true) :
    Removes l g (.detach place g) registrationKind

/-- An operation neither replaces nor removes a handler for a kind at a desk. -/
def Spares (l : Library) (g : Nat) (operation : Operation) (kind : String) : Prop :=
  (∀ handler, ¬Installs l g operation kind handler) ∧ ¬Removes l g operation kind

theorem Installs.unique (h : Installs l g operation kind handler) {g' : Nat} {kind' : String}
    {handler' : Handler} (h' : Installs l g' operation kind' handler') :
    g' = g ∧ kind' = kind ∧ handler' = handler := by
  cases h with
  | register => cases h'; exact ⟨rfl, rfl, rfl⟩
  | attach => cases h'; exact ⟨rfl, rfl, rfl⟩

theorem Removes.unique (h : Removes l g operation kind) {g' : Nat} {kind' : String}
    (h' : Removes l g' operation kind') : g' = g ∧ kind' = kind := by
  cases h with
  | unregister => cases h'; exact ⟨rfl, rfl⟩
  | detach => cases h'; exact ⟨rfl, rfl⟩

theorem Installs.not_removes (h : Installs l g operation kind handler) (g' : Nat)
    (kind' : String) : ¬Removes l g' operation kind' := by
  intro h'
  cases h with
  | register => cases h'
  | attach => cases h'

/-- What is installed leaves the other desks and kinds alone. -/
theorem Installs.spares (h : Installs l g operation kind handler) {g' : Nat} {kind' : String}
    (hother : ¬(g' = g ∧ kind' = kind)) : Spares l g' operation kind' := by
  refine ⟨?_, h.not_removes g' kind'⟩
  intro handler' h'
  obtain ⟨hdesk, hkind, -⟩ := h.unique h'
  exact hother ⟨hdesk, hkind⟩

theorem Removes.spares (h : Removes l g operation kind) {g' : Nat} {kind' : String}
    (hother : ¬(g' = g ∧ kind' = kind)) : Spares l g' operation kind' := by
  refine ⟨?_, ?_⟩
  · intro handler h'
    exact h'.not_removes g kind h
  · intro h'
    exact hother (h.unique h')

def Operation.ForHandlers : Operation → Prop
  | .attach .. => True
  | .detach .. => True
  | .register .. => True
  | .unregister .. => True
  | _ => False

theorem spares_of_other (h : ¬operation.ForHandlers) (l : Library) (g : Nat) (kind : String) :
    Spares l g operation kind := by
  refine ⟨?_, ?_⟩
  · intro handler hinstalls
    cases hinstalls with
    | register => exact h trivial
    | attach => exact h trivial
  · intro hremoves
    cases hremoves with
    | unregister => exact h trivial
    | detach => exact h trivial

/-- An attachment that is not carried out leaves the handlers alone. -/
theorem spares_of_unattached {place desk : Nat} {held : Bool}
    (h : held = true ∨ l.flag? place ≠ some false) (g : Nat) (kind : String) :
    Spares l g (.attach place desk held) kind := by
  refine ⟨?_, ?_⟩
  · intro handler hinstalls
    cases hinstalls with
    | attach place hflag =>
      rcases h with hheld | hnot
      · cases hheld
      · exact hnot hflag
  · intro hremoves
    cases hremoves

theorem spares_of_undetached {place desk : Nat} (h : l.flag? place ≠ some true) (g : Nat)
    (kind : String) : Spares l g (.detach place desk) kind := by
  refine ⟨?_, ?_⟩
  · intro handler hinstalls
    cases hinstalls
  · intro hremoves
    cases hremoves with
    | detach place hflag => exact h hflag

theorem desks_perform (storage : Storage) (operation : Operation) (l : Library) :
    (∃ g kind handler, Installs l g operation kind handler ∧
        (l.perform storage operation).state.desks = (l.register g kind handler).desks) ∨
      (∃ g kind, Removes l g operation kind ∧
        (l.perform storage operation).state.desks = (l.unregister g kind).2.desks) ∨
      (∀ g kind, Spares l g operation kind) ∧
        (l.perform storage operation).state.desks = l.desks := by
  cases operation with
  | act place action =>
    refine .inr (.inr ⟨spares_of_other id l, ?_⟩)
    rw [perform, act]
    split
    · rfl
    · rfl
  | attach place g held =>
    obtain ⟨hskip, hstate⟩ | ⟨rfl, hflag, b, -, hstate⟩ := attach_inv l place g held
    · exact .inr (.inr ⟨spares_of_unattached hskip, congrArg desks hstate⟩)
    · exact .inl ⟨g, _, _, .attach place hflag, (congrArg desks hstate).trans rfl⟩
  | detach place g =>
    obtain ⟨hskip, hstate⟩ | ⟨hflag, b, -, hstate⟩ := detach_inv l place g
    · exact .inr (.inr ⟨spares_of_undetached hskip, congrArg desks hstate⟩)
    · exact .inr (.inl ⟨g, _, .detach place hflag, (congrArg desks hstate).trans rfl⟩)
  | register g kind recorder => exact .inl ⟨g, kind, _, .register kind recorder, rfl⟩
  | unregister g kind => exact .inr (.inl ⟨g, kind, .unregister kind, rfl⟩)
  | load source g file held =>
    exact .inr (.inr ⟨spares_of_other id l, desks_load storage source held g file l⟩)
  | deliver g root file held =>
    exact .inr (.inr ⟨spares_of_other id l, desks_deliver storage held g root file l⟩)
  | drop | knows => exact .inr (.inr ⟨spares_of_other id l, rfl⟩)

theorem length_perform (storage : Storage) (operation : Operation) (l : Library) :
    (l.perform storage operation).state.desks.length = l.desks.length := by
  obtain ⟨g, kind, handler, -, hdesks⟩ | ⟨g, kind, -, hdesks⟩ | ⟨-, hdesks⟩ :=
    desks_perform storage operation l
  · simp [hdesks, register]
  · simp [hdesks, unregister]
  · rw [hdesks]

/-- A desk has a handler after one operation if it was installed by it, or was
there before and is left. -/
theorem handler?_perform_iff (storage : Storage) (hg : g < l.desks.length)
    (operation : Operation) (kind : String) (handler : Handler) :
    (l.perform storage operation).state.handler? g kind = some handler ↔
      Installs l g operation kind handler ∨
        Spares l g operation kind ∧ l.handler? g kind = some handler := by
  obtain ⟨g', kind', handler', hinstalls, hdesks⟩ | ⟨g', kind', hremoves, hdesks⟩ |
      ⟨hspares, hdesks⟩ := desks_perform storage operation l
  · rw [handler?_congr hdesks, handler?_register]
    -- at the desk and for the kind in question, or elsewhere
    by_cases hhere : g = g' ∧ kind = kind'
    · obtain ⟨rfl, rfl⟩ := hhere
      rw [if_pos ⟨rfl, rfl, hg⟩]
      constructor
      · rintro ⟨⟩
        exact .inl hinstalls
      · rintro (hother | ⟨hspares, -⟩)
        · rw [(hother.unique hinstalls).2.2]
        · exact absurd hinstalls (hspares.1 handler')
    · have hspares := hinstalls.spares hhere
      rw [if_neg (fun h => hhere ⟨h.1, h.2.1⟩)]
      simp [hspares, hspares.1 handler]
  · rw [handler?_congr hdesks, handler?_unregister]
    by_cases hhere : g = g' ∧ kind = kind'
    · obtain ⟨rfl, rfl⟩ := hhere
      have hnot : ¬Installs l g operation kind handler := by
        intro hinstalls
        exact hinstalls.not_removes g kind hremoves
      simp [hnot, Spares, hremoves]
    · have hspares := hremoves.spares hhere
      rw [if_neg hhere]
      simp [hspares, hspares.1 handler]
  · have hhere := hspares g kind
    rw [handler?_congr hdesks]
    simp [hhere, hhere.1 handler]

/-! ## Runs -/

/-- The operations of a run, each with the library that it found. -/
def steps (storage : Storage) : List Operation → Library → List (Library × Operation)
  | [], _ => []
  | operation :: rest, l =>
    (l, operation) :: steps storage rest (l.perform storage operation).state

theorem steps_concat (storage : Storage) (operations : List Operation) (operation : Operation)
    (l : Library) :
    steps storage (operations ++ [operation]) l =
      steps storage operations l ++ [((run storage operations l).state, operation)] := by
  induction operations generalizing l with
  | nil => rfl
  | cons first rest ih =>
    show (l, first) :: steps storage (rest ++ [operation]) (l.perform storage first).state = _
    rw [ih]
    rfl

/-- A handler stands at a desk for a kind: some operation has installed it there,
and no later one has installed another or removed it. -/
def Stands (g : Nat) (kind : String) (handler : Handler)
    (history : List (Library × Operation)) : Prop :=
  Latest (fun (l, operation) => Installs l g operation kind handler)
    (fun (l, operation) => Spares l g operation kind) history

theorem length_run (storage : Storage) (operations : List Operation) (l : Library) :
    (run storage operations l).state.desks.length = l.desks.length := by
  induction operations generalizing l with
  | nil => rfl
  | cons operation operations ih => exact (ih _).trans (length_perform storage operation l)

/-- A desk that had no handlers has after a run those that stand. -/
theorem handler?_run_iff (storage : Storage) (hnew : ∀ desk ∈ initial.desks, desk = ∅)
    (hg : g < initial.desks.length) (operations : List Operation) (kind : String)
    (handler : Handler) :
    (run storage operations initial).state.handler? g kind = some handler ↔
      Stands g kind handler (steps storage operations initial) := by
  -- the newest step decides, so steps are taken off the end
  induction operations using List.reverseRecOn with
  | nil =>
    have hnone : initial.handler? g kind = none := handler?_of_empty hnew g kind
    show initial.handler? g kind = some handler ↔ Latest _ _ []
    simp [hnone, not_latest_nil]
  | append_singleton operations operation ih =>
    have hlast : g < (run storage operations initial).state.desks.length := by
      rw [length_run]
      exact hg
    rw [run_append_state, steps_concat, Stands, latest_concat, ← Stands, ← ih]
    exact handler?_perform_iff storage hlast operation kind handler

/-! ## Handlers that are called -/

/-- A handler has been called once, with a root and a file: behind the paths
tried the turn is the handler's. The answer is one of its own, no other recorder
gets anything, the handlers stay, and so does every book that is not behind the
handler. -/
structure CalledOnce (storage : Storage) (held : Option Nat) (l : Library) (handler : Handler)
    (root : Markup.Element) (file : String) (turn : Turn Library Book.Reply) : Prop where
  turn_eq : ∃ tried, OnlyMisses tried ∧
    let called := l.handle storage held handler root file
    turn = ⟨.outcome called.answer, called.state, tried ++ called.events⟩
  answer_mem : ∃ answer ∈ handler.answers root file, turn.answer = .outcome answer
  receipts_eq : receipts turn.events = handler.receipts root file
  desks_eq : turn.state.desks = l.desks
  book?_eq : ∀ place, handler ≠ .book place → turn.state.book? place = l.book? place

/-- No handler has been called, and nothing has changed: all that is seen is the
paths tried. -/
structure CalledNone (l : Library) (failure : Failure) (turn : Turn Library Book.Reply) :
    Prop where
  answer_eq : turn.answer = .outcome (.error failure)
  state_eq : turn.state = l
  tried : OnlyMisses turn.events

theorem calledOnce_handle (storage : Storage) (held : Option Nat) (l : Library)
    (handler : Handler) (root : Markup.Element) (file : String) {tried : List Event}
    (htried : OnlyMisses tried) :
    let called := l.handle storage held handler root file
    CalledOnce storage held l handler root file
      ⟨.outcome called.answer, called.state, tried ++ called.events⟩ := by
  cases handler with
  | recorder recorder =>
    refine ⟨⟨tried, htried, rfl⟩, ⟨_, List.mem_singleton_self _, rfl⟩, ?_, rfl, fun _ _ => rfl⟩
    · rw [receipts_append, htried.receipts_eq]
      rfl
  | book place =>
    obtain ⟨failure, hfailure, hturn⟩ | ⟨b, hb, -, hturn⟩ :=
      handle_book_inv storage held place root file l
    · rw [hturn]
      refine ⟨⟨tried, htried, by rw [hturn]⟩, ⟨_, ?_, rfl⟩, ?_, rfl, fun _ _ => rfl⟩
      · rcases hfailure with ⟨-, rfl⟩ | ⟨-, rfl⟩
        · simp [Handler.answers]
        · simp [Handler.answers]
      · rw [receipts_append, htried.receipts_eq]
        rfl
    · rw [hturn]
      refine ⟨⟨tried, htried, by rw [hturn]⟩, ⟨_, ?_, rfl⟩, ?_, rfl, ?_⟩
      · simp [Handler.answers]
      · rw [receipts_append, htried.receipts_eq]
        exact b.receipts_ingest storage root
      · intro p hp
        have hne : p ≠ place := by
          rintro rfl
          exact hp rfl
        exact (book?_setBook hb _ p).trans (if_neg hne)

/-! ## Resources that are handed in -/

/-- An operation hands in the root of a document at a desk, as it is or out of
a file that can be read and is well-formed. -/
inductive HandsIn (g : Nat) (held : Option Nat) (root : Markup.Element) (file : String) :
    Operation → Prop where
  | element : HandsIn g held root file (.deliver g root file held)
  | document {source : Storage} {bytes : List UInt8} (hread : (source file).reading = .read bytes)
    (hroot : Markup.Element.ofBytes bytes = .ok root) :
    HandsIn g held root file (.load source g file held)

/-- An operation has no document to hand in, because its file is missing,
cannot be read, or is malformed. -/
inductive HandsInNothing : Operation → Failure → Prop where
  | missing {source : Storage} {file : String} (h : (source file).reading = .absent) (g : Nat)
    (held : Option Nat) : HandsInNothing (.load source g file held) (.missing file)
  | unreadable {source : Storage} {file : String} {fault : IoFault}
    (h : (source file).reading = .failed fault) (g : Nat) (held : Option Nat) :
    HandsInNothing (.load source g file held) (.unreadable file fault)
  | malformed {source : Storage} {file : String} {bytes : List UInt8} {fault : Markup.Fault}
    (hread : (source file).reading = .read bytes)
    (hroot : Markup.Element.ofBytes bytes = .error fault) (g : Nat) (held : Option Nat) :
    HandsInNothing (.load source g file held) (.malformed file fault)

theorem document_of_read {source : Storage} {bytes : List UInt8}
    (hread : (source file).reading = .read bytes)
    (hroot : Markup.Element.ofBytes bytes = .ok root) : source.document file = .ok root := by
  simp only [Storage.document, Storage.contents, hread, hroot]

theorem perform_of_handsIn (h : HandsIn g held root file operation) (storage : Storage)
    (l : Library) :
    ∃ tried, OnlyMisses tried ∧
      let turn := l.deliver storage held g root file
      l.perform storage operation = ⟨.outcome turn.answer, turn.state, tried ++ turn.events⟩ := by
  cases h with
  | element => exact ⟨[], onlyMisses_nil, rfl⟩
  | @document source bytes hread hroot =>
    refine ⟨source.missEvents file, onlyMisses_missEvents source file, ?_⟩
    simp only [perform, settle, load_eq, document_of_read hread hroot]

theorem calledNone_of_handsInNothing (h : HandsInNothing operation failure) (storage : Storage)
    (l : Library) : CalledNone l failure (l.perform storage operation) := by
  obtain ⟨source, g, file, held, rfl, hdocument⟩ : ∃ source g file held,
      operation = .load source g file held ∧ source.document file = .error failure := by
    cases h with
    | missing h g held =>
      exact ⟨_, g, _, held, rfl, Storage.document_error_iff.mpr (.inl ⟨h, rfl⟩)⟩
    | unreadable h g held =>
      exact ⟨_, g, _, held, rfl, Storage.document_error_iff.mpr (.inr (.inl ⟨_, h, rfl⟩))⟩
    | malformed hread hroot g held =>
      exact ⟨_, g, _, held, rfl,
        Storage.document_error_iff.mpr (.inr (.inr ⟨_, _, hread, hroot, rfl⟩))⟩
  rw [perform, settle, load_eq, hdocument]
  exact ⟨rfl, rfl, onlyMisses_missEvents source file⟩

theorem calledOnce_of_handler (h : HandsIn g held root file operation)
    (hhandler : l.handler? g root.kind = some handler) (storage : Storage) :
    CalledOnce storage held l handler root file (l.perform storage operation) := by
  obtain ⟨tried, htried, hturn⟩ := perform_of_handsIn h storage l
  have hdeliver : l.deliver storage held g root file = l.handle storage held handler root file := by
    rw [deliver, ← handler?, hhandler]
  rw [hturn, hdeliver]
  exact calledOnce_handle storage held l handler root file htried

theorem calledNone_of_no_handler (h : HandsIn g held root file operation)
    (hnone : l.handler? g root.kind = none) (storage : Storage) :
    CalledNone l (.noHandler root.kind) (l.perform storage operation) := by
  obtain ⟨tried, htried, hturn⟩ := perform_of_handsIn h storage l
  have hdeliver : l.deliver storage held g root file = ⟨.error (.noHandler root.kind), l, []⟩ := by
    rw [deliver, ← handler?, hnone]
  rw [hturn, hdeliver]
  exact ⟨rfl, rfl, by rwa [List.append_nil]⟩

theorem unregister_answer (storage : Storage) (l : Library) (g : Nat) (kind : String) :
    (l.perform storage (.unregister g kind)).answer = .flag (l.handler? g kind).isSome := by
  show Book.Reply.flag ((l.desk g).contains kind) = _
  rw [handler?, Std.ExtTreeMap.isSome_getElem?_eq_contains]

/-- Whatever was done with a library that began without handlers, a resource that
is handed in at a desk calls the handler that was installed there last for its
kind and has not been removed, once, and no other; where there is none, and
where no document can be had, no handler is called and nothing changes. The
desk tells on removal whether there was one. -/
theorem dispatch_history (storage : Storage) (initial : Library)
    (hnew : ∀ desk ∈ initial.desks, desk = ∅) (operations : List Operation) (g : Nat)
    (hg : g < initial.desks.length) :
    let l := (run storage operations initial).state
    let history := steps storage operations initial
    (∀ kind handler other, Stands g kind handler history → Stands g kind other history →
      handler = other) ∧
    (∀ operation held root file kind, HandsIn g held root file operation → root.HasKind kind →
      (∀ handler, Stands g kind handler history →
        CalledOnce storage held l handler root file (l.perform storage operation)) ∧
      ((∀ handler, ¬Stands g kind handler history) →
        CalledNone l (.noHandler kind) (l.perform storage operation))) ∧
    (∀ operation failure, HandsInNothing operation failure →
      CalledNone l failure (l.perform storage operation)) ∧
    ∀ kind, (l.perform storage (.unregister g kind)).answer = .flag true ↔
      ∃ handler, Stands g kind handler history := by
  intro l history
  have hstands : ∀ kind handler, Stands g kind handler history ↔
      l.handler? g kind = some handler :=
    fun kind handler => (handler?_run_iff storage hnew hg operations kind handler).symm
  refine ⟨?unique, ?handed, ?nothing, ?removed⟩
  case unique =>
    intro kind handler other h hother
    rw [hstands] at h hother
    exact Option.some.inj (h.symm.trans hother)
  case handed =>
    intro operation held root file kind hin hkind
    rw [Markup.Element.hasKind_iff] at hkind
    subst hkind
    refine ⟨?_, ?_⟩
    · intro handler h
      exact calledOnce_of_handler hin ((hstands _ handler).mp h) storage
    · intro hnone
      apply calledNone_of_no_handler hin
      rw [Option.eq_none_iff_forall_ne_some]
      intro handler h
      exact hnone handler ((hstands _ handler).mpr h)
  case nothing =>
    intro operation failure h
    exact calledNone_of_handsInNothing h storage l
  case removed =>
    intro kind
    rw [unregister_answer]
    simp [hstands, Option.isSome_iff_exists]

def lenient : Recorder := ⟨"lenient", Markup.Element.content, fun _ _ => none⟩

/-- A recorder gives way to one that refuses, a book is attached at the same
desk, and at the other desk a second book, in the place of a recorder, from
where it is taken away again. -/
def replaced : List Operation :=
  [.register 0 "Skin" lenient, .register 0 "Skin" strict, .attach 0 0 false,
    .register 1 "Language" lenient, .attach 1 1 false, .unregister 1 "Language"]

def registrationRoot : Markup.Element :=
  ⟨"R", [("type", "Language")],
    [⟨"Language", [("default", "en")],
      [⟨"Info", [("name", "en")], [⟨"Source", [], [], "one"⟩], ""⟩], ""⟩], ""⟩

theorem dispatch_history_replaced :
    let l := (run packed replaced (fresh [64, 64] 2)).state
    let skin := l.perform packed (.load packed 0 "skin.xml" none)
    let packs := l.perform packed (.load packed 0 "packs.xml" none)
    let typed : Markup.Element := ⟨"Skin", [("type", "")], [], ""⟩
    skin.answer = .outcome (.error (.refused "nothing in skin.xml")) ∧
      receipts skin.events = [("strict", "Skin", "skin.xml")] ∧
      CalledOnce packed none l (.book 0) registrationRoot "packs.xml" packs ∧
      packs.state.book? 1 = l.book? 1 ∧
      CalledNone l (.noHandler "Language") (l.perform packed (.load packed 1 "packs.xml" none)) ∧
      CalledNone l (.noHandler "") (l.perform packed (.deliver 0 typed "skin.xml" none)) ∧
      CalledNone l (.missing "gone.xml") (l.perform packed (.load packed 0 "gone.xml" none)) ∧
      (l.perform packed (.unregister 0 "Skin")).answer = .flag true ∧
      (l.perform packed (.unregister 1 "Language")).answer ≠ .flag true := by
  intro l skin packs typed
  have hnew := desks_fresh [64, 64] 2
  have hiff {g : Nat} (hg : g < 2) {kind : String} {handler : Handler} :=
    handler?_run_iff packed hnew hg replaced kind handler
  have hskins : Stands 0 "Skin" (.recorder strict) (steps packed replaced (fresh [64, 64] 2)) :=
    (hiff (by decide)).mp (by rfl)
  have hbook : Stands 0 "Language" (.book 0) (steps packed replaced (fresh [64, 64] 2)) :=
    (hiff (by decide)).mp (by decide +kernel)
  have hnone (g : Nat) (hg : g < 2) (kind : String) (hempty : l.handler? g kind = none)
      (handler : Handler) : ¬Stands g kind handler (steps packed replaced (fresh [64, 64] 2)) := by
    rw [← hiff hg]
    show l.handler? g kind ≠ some handler
    rw [hempty]
    exact nofun
  have hgone := hnone 1 (by decide) "Language" (by decide +kernel)
  have hunnamed := hnone 0 (by decide) "" (by decide +kernel)
  have hskin : HandsIn 0 none ⟨"Skin", [], [], ""⟩ "skin.xml" (.load packed 0 "skin.xml" none) :=
    .document rfl (by decide +kernel)
  have hpacks (g : Nat) :
      HandsIn g none registrationRoot "packs.xml" (.load packed g "packs.xml" none) :=
    .document rfl (by decide +kernel)
  -- the first desk has a recorder and a book, the other one nothing
  obtain ⟨-, hfirst, hnothing, hremoved⟩ :=
    dispatch_history packed (fresh [64, 64] 2) hnew replaced 0 (by decide)
  obtain ⟨-, hsecond, -, hkept⟩ :=
    dispatch_history packed (fresh [64, 64] 2) hnew replaced 1 (by decide)
  have hrefused := (hfirst _ _ _ _ "Skin" hskin (.inr ⟨rfl, rfl⟩)).1 _ hskins
  have htaken := (hfirst _ _ _ _ "Language" (hpacks 0) (.inl rfl)).1 _ hbook
  obtain ⟨answer, hanswer, hreply⟩ := hrefused.answer_mem
  have hreason : answer = .error (.refused "nothing in skin.xml") := List.mem_singleton.mp hanswer
  refine ⟨hreply.trans (congrArg _ hreason), hrefused.receipts_eq, htaken,
    htaken.book?_eq 1 (by simp), (hsecond _ _ _ _ _ (hpacks 1) (.inl rfl)).2 hgone,
    (hfirst _ _ _ _ _ .element (.inl rfl)).2 hunnamed, hnothing _ _ (.missing rfl 0 none),
    (hremoved "Skin").mpr ⟨_, hskins⟩, ?_⟩
  rw [ne_eq, hkept]
  rintro ⟨handler, h⟩
  exact hgone handler h

end Library

end Phrasebook
