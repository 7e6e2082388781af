import Phrasebook.Proofs.Library.Announcement

/-
  Registration files that come by a desk, and those that a book reads itself.

  Either way the file is read and parsed first, and one that cannot be had
  fails for the same reason. Behind that stands, on the one way, the handler of
  the desk for the kind of the root, and behind the handler a book; on the other
  way the book.

  What is proved:
    1. `document_error_iff` — for what reasons there is no document in a file.
    2. `loadRegistration_eq`, `load_eq` — a book takes in the document of its
       file; a desk delivers the document of the file handed in.
    3. `onlyRegistrars_run` — books stand behind handlers for registrations, and
       behind no others, whatever was done with a fresh library.
    4. `load_agrees` — so it makes no difference to a book which way its
       registration file comes.
-/

namespace Phrasebook

/-! ## Documents in files -/

/-- The root of the document in a file, or why there is none. -/
def Storage.document (storage : Storage) (file : String) : Except Failure Markup.Element :=
  match storage.contents file with
  | .error failure => .error failure
  | .ok bytes =>
    match Markup.Element.ofBytes bytes with
    | .error fault => .error (.malformed file fault)
    | .ok root => .ok root

theorem Storage.document_congr {source storage : Storage} {file : String}
    (h : (source file).reading = (storage file).reading) :
    source.document file = storage.document file := by
  unfold document contents
  rw [h]

/-- There is no document in a file that is missing, cannot be read, or is
malformed. -/
theorem Storage.document_error_iff {storage : Storage} {file : String} {failure : Failure} :
    storage.document file = .error failure ↔
      ((storage file).reading = .absent ∧ failure = .missing file) ∨
      (∃ fault, (storage file).reading = .failed fault ∧ failure = .unreadable file fault) ∨
      ∃ bytes fault, (storage file).reading = .read bytes ∧
        Markup.Element.ofBytes bytes = .error fault ∧ failure = .malformed file fault := by
  unfold document contents
  cases (storage file).reading with
  | absent => simp [eq_comm]
  | failed fault => simp [eq_comm]
  | read bytes =>
    simp only
    cases hroot : Markup.Element.ofBytes bytes with
    | error fault => simp [hroot, eq_comm]
    | ok root => simp [hroot]

theorem Book.document?_eq (storage : Storage) (file : String) :
    Book.document? storage file = (storage.document file).toOption := by
  rw [Book.document?, Storage.document]
  cases storage.contents file with
  | error failure => rfl
  | ok bytes =>
    simp only
    cases Markup.Element.ofBytes bytes with
    | error fault => rfl
    | ok root => rfl

theorem Book.loadRegistration_eq (storage : Storage) (file : String) (b : Book) :
    b.loadRegistration storage file =
      match storage.document file with
      | .error failure =>
        ⟨.error failure, b, storage.missEvents file ++ [.logged (.failed failure)]⟩
      | .ok root =>
        ⟨.ok (), (b.ingest storage root).1,
          storage.missEvents file ++ (b.ingest storage root).2⟩ := by
  rw [loadRegistration, Storage.document]
  cases storage.contents file with
  | error failure => rfl
  | ok bytes =>
    simp only
    cases Markup.Element.ofBytes bytes with
    | error fault => rfl
    | ok root => rfl

/-- A resource has the kind that its attribute `type` gives, an empty one as well,
or without such an attribute that of its name. -/
def Markup.Element.HasKind (root : Markup.Element) (kind : String) : Prop :=
  root.attribute? "type" = some kind ∨ root.attribute? "type" = none ∧ root.name = kind

theorem Markup.Element.hasKind_iff {root : Markup.Element} {kind : String} :
    root.HasKind kind ↔ root.kind = kind := by
  unfold HasKind Markup.Element.kind
  cases root.attribute? "type" with
  | none => simp
  | some given => simp

/-- A registration says so by its attribute `type`, or by its name if it has no
such attribute. -/
def Markup.Element.IsRegistration (root : Markup.Element) : Prop :=
  root.attribute? "type" = some "Language" ∨
    root.attribute? "type" = none ∧ root.name = "Language"

theorem Markup.Element.isRegistration_iff (root : Markup.Element) :
    root.IsRegistration ↔ root.kind = registrationKind :=
  hasKind_iff

namespace Library

variable {storage source : Storage} {l : Library} {held : Option Nat} {g place : Nat} {b : Book}
  {root : Markup.Element} {file : String}

/-! ## Documents at a desk -/

theorem load_eq (storage source : Storage) (held : Option Nat) (g : Nat) (file : String)
    (l : Library) :
    l.load storage source held g file =
      match source.document file with
      | .error failure => ⟨.error failure, l, source.missEvents file⟩
      | .ok root =>
        ⟨(l.deliver storage held g root file).answer, (l.deliver storage held g root file).state,
          source.missEvents file ++ (l.deliver storage held g root file).events⟩ := by
  rw [load, Storage.document]
  cases source.contents file with
  | error failure => rfl
  | ok bytes =>
    simp only
    cases Markup.Element.ofBytes bytes with
    | error fault => rfl
    | ok root => rfl

theorem desks_deliver (storage : Storage) (held : Option Nat) (g : Nat) (root : Markup.Element)
    (file : String) (l : Library) : (l.deliver storage held g root file).state.desks = l.desks := by
  obtain ⟨-, h⟩ | ⟨_, -, h⟩ | ⟨_, _, -, -, h⟩ | ⟨_, _, -, -, -, h⟩ :=
    deliver_inv storage held g root file l
  all_goals rw [h]
  rfl

theorem desks_load (storage source : Storage) (held : Option Nat) (g : Nat) (file : String)
    (l : Library) : (l.load storage source held g file).state.desks = l.desks := by
  rw [load_eq]
  cases source.document file with
  | error failure => rfl
  | ok root => exact desks_deliver storage held g root file l

/-! ## Books behind handlers -/

/-- Books stand behind handlers for registrations, and behind no others. -/
def OnlyRegistrars (l : Library) : Prop :=
  ∀ g kind place, (l.desk g)[kind]? = some (.book place) → kind = registrationKind

namespace OnlyRegistrars

/-- Only the handlers matter. -/
theorem congr (h : l.OnlyRegistrars) {l' : Library} (hdesks : l'.desks = l.desks) :
    l'.OnlyRegistrars := by
  intro g kind place hhandler
  unfold desk at hhandler
  rw [hdesks] at hhandler
  exact h g kind place hhandler

theorem register (h : l.OnlyRegistrars) {kind : String} {handler : Handler}
    (hkind : ∀ place, handler = .book place → kind = registrationKind) (g : Nat) :
    (l.register g kind handler).OnlyRegistrars := by
  intro g' kind' place hhandler
  replace hhandler := (handler?_register l g kind handler g' kind').symm.trans hhandler
  split at hhandler
  · next heq =>
    rw [heq.2.1]
    exact hkind place (Option.some.inj hhandler)
  · exact h g' kind' place hhandler

theorem unregister (h : l.OnlyRegistrars) (g : Nat) (kind : String) :
    (l.unregister g kind).2.OnlyRegistrars := by
  intro g' kind' place hhandler
  replace hhandler := (handler?_unregister l g kind g' kind').symm.trans hhandler
  split at hhandler
  · cases hhandler
  · exact h g' kind' place hhandler

end OnlyRegistrars

theorem onlyRegistrars_fresh (bounds : List Nat) (desks : Nat) :
    (fresh bounds desks).OnlyRegistrars := by
  intro g kind place hhandler
  rw [← handler?, handler?_of_empty (desks_fresh bounds desks)] at hhandler
  cases hhandler

theorem onlyRegistrars_perform (storage : Storage) (h : l.OnlyRegistrars) (operation : Operation) :
    (l.perform storage operation).state.OnlyRegistrars := by
  cases operation with
  | act place action =>
    apply h.congr
    rw [perform, act]
    split
    · rfl
    · rfl
  | drop place => exact h.congr rfl
  | attach place g held =>
    show (l.attach place g held).1.OnlyRegistrars
    obtain ⟨-, hstate⟩ | ⟨-, -, b, -, hstate⟩ := attach_inv l place g held
    · rw [hstate]
      exact h
    · rw [hstate]
      exact (h.register (fun _ _ => rfl) g).congr rfl
  | detach place g =>
    show (l.detach place g).1.OnlyRegistrars
    obtain ⟨-, hstate⟩ | ⟨-, b, -, hstate⟩ := detach_inv l place g
    · rw [hstate]
      exact h
    · rw [hstate]
      exact (h.unregister g registrationKind).congr rfl
  | register g kind recorder => exact h.register (by intro place hbook; cases hbook) g
  | unregister g kind => exact h.unregister g kind
  | knows g kind => exact h
  | load source g file held => exact h.congr (desks_load storage source held g file l)
  | deliver g root file held => exact h.congr (desks_deliver storage held g root file l)

theorem onlyRegistrars_run (storage : Storage) (operations : List Operation)
    (h : l.OnlyRegistrars) : (run storage operations l).state.OnlyRegistrars := by
  induction operations generalizing l with
  | nil => exact h
  | cons operation operations ih => exact ih (onlyRegistrars_perform storage h operation)

/-! ## The two ways -/

/-- A registration, or a file that cannot be had, comes to the same at the desk
of a book and at the book. -/
theorem load_of_registration (hb : l.book? place = some b) (hheld : held ≠ some place)
    (hserves : l.Serves g place) (hdocument : source.document file = storage.document file)
    (h : ∀ root, source.document file = .ok root → root.IsRegistration) :
    let handed := l.load storage source held g file
    let loaded := b.loadRegistration storage file
    handed.state = l.setBook place loaded.state ∧ calls handed.events = calls loaded.events ∧
      handed.answer = loaded.answer := by
  simp only [load_eq, Book.loadRegistration_eq]
  rw [hdocument] at h ⊢
  cases hroot : storage.document file with
  | error failure => simp [setBook_self hb]
  | ok root =>
    have hkind : root.kind = registrationKind := root.isRegistration_iff.mp (h root hroot)
    have hhandler : (l.desk g)[root.kind]? = some (.book place) := by
      rw [hkind]
      exact hserves
    simp only [deliver_of_book hhandler hb hheld]
    simp

/-- A document of another kind reaches no book. -/
theorem load_of_other (h : l.OnlyRegistrars) (hroot : source.document file = .ok root)
    (hother : ¬root.IsRegistration) (storage : Storage) (held : Option Nat) (g : Nat) :
    (l.load storage source held g file).state = l ∧
      calls (l.load storage source held g file).events = [] := by
  have hkind : root.kind ≠ registrationKind := by
    intro hkind
    exact hother (root.isRegistration_iff.mpr hkind)
  simp only [load_eq, hroot, calls_append, calls_missEvents, List.nil_append]
  obtain ⟨-, hturn⟩ | ⟨_, -, hturn⟩ | ⟨_, _, hbook, -⟩ | ⟨_, _, hbook, -⟩ :=
    deliver_inv storage held g root file l
  · rw [hturn]
    exact ⟨rfl, rfl⟩
  · rw [hturn]
    exact ⟨rfl, rfl⟩
  · exact absurd (h _ _ _ hbook) hkind
  · exact absurd (h _ _ _ hbook) hkind

theorem loadRegistration_error {failure : Failure}
    (h : (b.loadRegistration storage file).answer = .error failure) :
    storage.document file = .error failure := by
  rw [Book.loadRegistration_eq] at h
  cases hroot : storage.document file with
  | error reason =>
    rw [hroot] at h
    cases h
    rfl
  | ok root =>
    rw [hroot] at h
    cases h

/-- A registration file, or one that cannot be had, comes to the same for an
attached book whether it is handed in at its desk or read by the book: the same
state, the same calls of listeners in the same order, and the same outcome. A
file of another kind does not reach the book. Either way the handlers stay. -/
theorem load_agrees (storage source : Storage) (l : Library) (held : Option Nat) (g place : Nat)
    (file : String) (b : Book) (hb : l.book? place = some b) (hheld : held ≠ some place)
    (hserves : l.Serves g place) (hsame : (source file).reading = (storage file).reading) :
    let handed := l.load storage source held g file
    let loaded := b.loadRegistration storage file
    ((∀ root, source.document file = .ok root → root.IsRegistration) →
      handed.state = l.setBook place loaded.state ∧
      handed.state.book? place = some loaded.state ∧
      calls handed.events = calls loaded.events ∧
      handed.answer = loaded.answer ∧
      ∀ failure, loaded.answer = .error failure →
        ((storage file).reading = .absent ∧ failure = .missing file) ∨
        (∃ fault, (storage file).reading = .failed fault ∧ failure = .unreadable file fault) ∨
        ∃ bytes fault, (storage file).reading = .read bytes ∧
          Markup.Element.ofBytes bytes = .error fault ∧ failure = .malformed file fault) ∧
    (∀ root, source.document file = .ok root → ¬root.IsRegistration → l.OnlyRegistrars →
      handed.state = l ∧ calls handed.events = []) ∧
    (∀ bounds desks operations,
      (run storage operations (fresh bounds desks)).state.OnlyRegistrars) ∧
    handed.state.desks = l.desks := by
  intro handed loaded
  refine ⟨?agree, ?other, ?reached, desks_load storage source held g file l⟩
  case agree =>
    intro hregistration
    obtain ⟨hstate, hcalls, hanswer⟩ := load_of_registration hb hheld hserves
      (Storage.document_congr hsame) hregistration
    refine ⟨hstate, ?_, hcalls, hanswer, ?_⟩
    · show (l.load storage source held g file).state.book? place = some loaded.state
      rw [hstate, book?_setBook hb, if_pos rfl]
    · intro failure hfailure
      exact Storage.document_error_iff.mp (loadRegistration_error hfailure)
  case other =>
    intro root hroot hother hregistrars
    exact load_of_other hregistrars hroot hother storage held g
  case reached =>
    intro bounds desks operations
    exact onlyRegistrars_run storage operations (onlyRegistrars_fresh bounds desks)

/-- A storage with a registration file, a file of another kind, a malformed one, and
a tag file. -/
def packed : Storage := fun file =>
  ⟨[], if file = "packs.xml" then
      .read (Utf8.encode ("<R type=\"Language\"><Language default=\"en\">" ++
        "<Info name=\"en\"><Source>one</Source></Info></Language></R>").toList)
    else if file = "skin.xml" then .read (Utf8.encode "<Skin/>".toList)
    else if file = "broken.xml" then .read (Utf8.encode "<R>".toList)
    else if file = "one" then .read (Utf8.encode "yes\tYes".toList)
    else .absent⟩

def oneDesk : Library := (run packed [.attach 0 0 false] (fresh [64] 1)).state

theorem load_agrees_packs :
    ∃ b, oneDesk.book? 0 = some b ∧
      (oneDesk.load packed packed none 0 "packs.xml").state.book? 0 =
        some (b.loadRegistration packed "packs.xml").state ∧
      (oneDesk.load packed packed none 0 "packs.xml").answer = .ok () ∧
      (b.loadRegistration packed "packs.xml").state.current = "en" ∧
      (oneDesk.load packed packed none 0 "gone.xml").answer = .error (.missing "gone.xml") ∧
      (oneDesk.load packed packed none 0 "skin.xml").state = oneDesk := by
  let b : Book := { attached := true }
  have hb : oneDesk.book? 0 = some b := rfl
  have hserves : oneDesk.Serves 0 0 := by decide
  have hheld : none ≠ some 0 := nofun
  have hkind : (packed.document "packs.xml").toOption.map (·.kind) = some "Language" := by
    decide +kernel
  have hskin : (packed.document "skin.xml").toOption.map (·.kind) = some "Skin" := by
    decide +kernel
  obtain ⟨hpacks, -, hreached, -⟩ :=
    load_agrees packed packed oneDesk none 0 0 "packs.xml" b hb hheld hserves rfl
  obtain ⟨hgone, -⟩ := load_agrees packed packed oneDesk none 0 0 "gone.xml" b hb hheld hserves rfl
  obtain ⟨-, hother, -⟩ :=
    load_agrees packed packed oneDesk none 0 0 "skin.xml" b hb hheld hserves rfl
  obtain ⟨-, hbook, -, hanswer, -⟩ := hpacks fun root hroot => by
    rw [hroot] at hkind
    exact root.isRegistration_iff.mpr (Option.some.inj hkind)
  obtain ⟨-, -, -, hmissing, -⟩ := hgone nofun
  refine ⟨b, hb, hbook, hanswer.trans (by decide +kernel), by decide +kernel,
    hmissing.trans (by decide +kernel), ?_⟩
  cases hroot : packed.document "skin.xml" with
  | error failure =>
    rw [hroot] at hskin
    cases hskin
  | ok root =>
    rw [hroot] at hskin
    have hname : root.kind = "Skin" := Option.some.inj hskin
    refine (hother root hroot ?_ (hreached [64] 1 [.attach 0 0 false])).1
    rw [root.isRegistration_iff, hname]
    decide

end Library

end Phrasebook
