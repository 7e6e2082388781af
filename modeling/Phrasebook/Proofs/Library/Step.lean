import Mathlib.Tactic.ByContra
import Phrasebook.Library.Basic

/-
  What one step of a library can do.

  Each of the operations that have a choice is opened here once, with all that it
  can come to; what is known of a library after it follows from that.

  What is proved:
    1. `book?_setBook`, `handler?_register`, `handler?_unregister` — where a book or
       a handler is written, and nothing else, another is found.
    2. `attach_inv`, `detach_inv` — an attachment or a detachment either does
       nothing, or sets one flag and the handler of one desk.
    3. `handle_book_inv`, `deliver_inv` — what can become of a document that is
       delivered: only the book behind the handler takes it in, if it is there and
       nobody holds it.
-/

namespace Phrasebook.Library

def flag? (l : Library) (place : Nat) : Option Bool := (l.book? place).map Book.attached

def handler? (l : Library) (g : Nat) (kind : String) : Option Handler := (l.desk g)[kind]?

variable {storage : Storage} {l : Library} {held : Option Nat} {g place : Nat} {b : Book}
  {root : Markup.Element}

/-! ## Books -/

/-- What stands at a place after one place was written was written there, or
stood there before. -/
theorem join_getElem?_set {books : List (Option Book)} {place p : Nat} {o : Option Book}
    {b : Book} (h : (books.set place o)[p]?.join = some b) :
    o = some b ∨ books[p]?.join = some b := by
  rw [List.getElem?_set] at h
  split at h
  · split at h
    · exact .inl h
    · cases h
  · exact .inr h

theorem book?_setBook {b : Book} (h : l.book? place = some b) (b' : Book) (p : Nat) :
    (l.setBook place b').book? p = if p = place then some b' else l.book? p := by
  have hlt : place < l.books.length := by
    by_contra hge
    rw [book?, List.getElem?_eq_none (Nat.le_of_not_lt hge)] at h
    cases h
  simp only [book?, setBook, List.getElem?_set]
  by_cases hp : place = p
  · subst hp
    simp [hlt]
  · simp [hp, Ne.symm hp]

theorem setBook_self {b : Book} (h : l.book? place = some b) : l.setBook place b = l := by
  have hget : l.books[place]? = some (some b) := Option.join_eq_some_iff.mp h
  obtain ⟨hlt, hget⟩ := List.getElem?_eq_some_iff.mp hget
  rw [setBook, ← hget, List.set_getElem_self]

theorem flag?_setBook {b : Book} (h : l.book? place = some b) (b' : Book) (p : Nat) :
    (l.setBook place b').flag? p = if p = place then some b'.attached else l.flag? p := by
  rw [flag?, book?_setBook h]
  split
  · rfl
  · rfl

/-! ## Handlers -/

theorem handler?_congr {l' : Library} (h : l'.desks = l.desks) (g : Nat) (kind : String) :
    l'.handler? g kind = l.handler? g kind := by
  unfold handler? desk
  rw [h]

theorem handler?_register (l : Library) (g : Nat) (kind : String) (handler : Handler) (g' : Nat)
    (kind' : String) :
    (l.register g kind handler).handler? g' kind' =
      if g' = g ∧ kind' = kind ∧ g < l.desks.length then some handler
      else l.handler? g' kind' := by
  simp only [handler?, register, desk, List.getElem?_set]
  by_cases hg : g = g'
  · subst hg
    by_cases hlt : g < l.desks.length
    · by_cases hkind : kind = kind'
      · simp [hlt, hkind]
      · simp [hlt, Std.ExtTreeMap.getElem?_insert, hkind, Ne.symm hkind]
    · simp [hlt]
  · simp [hg, Ne.symm hg]

theorem handler?_unregister (l : Library) (g : Nat) (kind : String) (g' : Nat) (kind' : String) :
    (l.unregister g kind).2.handler? g' kind' =
      if g' = g ∧ kind' = kind then none else l.handler? g' kind' := by
  simp only [handler?, unregister, desk, List.getElem?_set]
  by_cases hg : g = g'
  · subst hg
    by_cases hlt : g < l.desks.length
    · by_cases hkind : kind = kind'
      · simp [hlt, hkind]
      · simp [hlt, Std.ExtTreeMap.getElem?_erase, hkind, Ne.symm hkind]
    · simp [hlt]
  · simp [hg, Ne.symm hg]

theorem handler?_of_empty (h : ∀ desk ∈ l.desks, desk = ∅) (g : Nat) (kind : String) :
    l.handler? g kind = none := by
  rw [handler?, desk]
  cases hdesk : l.desks[g]? with
  | none => simp
  | some d => simp [h d (List.mem_of_getElem? hdesk)]

theorem desks_fresh (bounds : List Nat) (desks : Nat) :
    ∀ desk ∈ (fresh bounds desks).desks, desk = ∅ := by
  intro desk hdesk
  exact List.eq_of_mem_replicate hdesk

/-! ## Attachments -/

/-- A book is attached if there is one that is not attached yet and that nobody
holds, and otherwise nothing happens. -/
theorem attach_inv (l : Library) (place g : Nat) (held : Bool) :
    ((held = true ∨ l.flag? place ≠ some false) ∧ (l.attach place g held).1 = l) ∨
      (held = false ∧ l.flag? place = some false ∧ ∃ b, l.book? place = some b ∧
        (l.attach place g held).1 =
          (l.register g registrationKind (.book place)).setBook place
            { b with attached := true }) := by
  rw [attach]
  cases hb : l.book? place with
  | none => exact .inl ⟨.inr (by simp [flag?, hb]), rfl⟩
  | some b =>
    cases held with
    | true => exact .inl ⟨.inl rfl, rfl⟩
    | false =>
      cases hattached : b.attached with
      | true => exact .inl ⟨.inr (by simp [flag?, hb, hattached]), by simp [hattached]⟩
      | false => exact .inr ⟨rfl, by simp [flag?, hb, hattached], b, rfl, by simp [hattached]⟩

/-- A book is detached if there is one that is attached, and otherwise nothing
happens. -/
theorem detach_inv (l : Library) (place g : Nat) :
    (l.flag? place ≠ some true ∧ (l.detach place g).1 = l) ∨
      (l.flag? place = some true ∧ ∃ b, l.book? place = some b ∧
        (l.detach place g).1 =
          (l.unregister g registrationKind).2.setBook place { b with attached := false }) := by
  rw [detach]
  cases hb : l.book? place with
  | none => exact .inl ⟨by simp [flag?, hb], rfl⟩
  | some b =>
    cases hattached : b.attached with
    | false => exact .inl ⟨by simp [flag?, hb, hattached], by simp [hattached]⟩
    | true => exact .inr ⟨by simp [flag?, hb, hattached], b, rfl, by simp [hattached]⟩

/-! ## Documents -/

/-- A book that is called takes the document in, unless it is gone or held. -/
theorem handle_book_inv (storage : Storage) (held : Option Nat) (place : Nat)
    (root : Markup.Element) (file : String) (l : Library) :
    (∃ failure,
        (l.book? place = none ∧ failure = .bookDropped ∨
          held = some place ∧ failure = .bookHeld) ∧
        l.handle storage held (.book place) root file = ⟨.error failure, l, []⟩) ∨
      ∃ b, l.book? place = some b ∧ held ≠ some place ∧
        l.handle storage held (.book place) root file =
          ⟨.ok (), l.setBook place (b.ingest storage root).1,
            .logged (.registering file) :: (b.ingest storage root).2⟩ := by
  rw [handle]
  cases hb : l.book? place with
  | none => exact .inl ⟨.bookDropped, .inl ⟨rfl, rfl⟩, rfl⟩
  | some b =>
    by_cases hheld : held = some place
    · exact .inl ⟨.bookHeld, .inr ⟨hheld, rfl⟩, by simp [hheld]⟩
    · exact .inr ⟨b, rfl, hheld, by simp [hheld]⟩

/-- All that can become of a document: there is no handler for its kind, a
recorder has it, the book behind the handler is gone or held, or the book takes
it in. -/
theorem deliver_inv (storage : Storage) (held : Option Nat) (g : Nat) (root : Markup.Element)
    (file : String) (l : Library) :
    ((l.desk g)[root.kind]? = none ∧
        l.deliver storage held g root file = ⟨.error (.noHandler root.kind), l, []⟩) ∨
      (∃ recorder, (l.desk g)[root.kind]? = some (.recorder recorder) ∧
        l.deliver storage held g root file =
          ⟨recorder.answer root file, l, [.handled recorder.name (recorder.note root) file]⟩) ∨
      (∃ place failure, (l.desk g)[root.kind]? = some (.book place) ∧
        (l.book? place = none ∧ failure = .bookDropped ∨
          held = some place ∧ failure = .bookHeld) ∧
        l.deliver storage held g root file = ⟨.error failure, l, []⟩) ∨
      ∃ place b, (l.desk g)[root.kind]? = some (.book place) ∧ l.book? place = some b ∧
        held ≠ some place ∧
        l.deliver storage held g root file =
          ⟨.ok (), l.setBook place (b.ingest storage root).1,
            .logged (.registering file) :: (b.ingest storage root).2⟩ := by
  unfold deliver
  cases hhandler : (l.desk g)[root.kind]? with
  | none => exact .inl ⟨rfl, rfl⟩
  | some handler =>
    right
    cases handler with
    | recorder recorder => exact .inl ⟨recorder, rfl, rfl⟩
    | book place =>
      right
      obtain ⟨failure, hfailure, hturn⟩ | ⟨b, hb, hheld, hturn⟩ :=
        handle_book_inv storage held place root file l
      · exact .inl ⟨place, failure, rfl, hfailure, hturn⟩
      · exact .inr ⟨place, b, rfl, hb, hheld, hturn⟩

theorem deliver_of_book (hhandler : (l.desk g)[root.kind]? = some (.book place))
    (hb : l.book? place = some b) (hheld : held ≠ some place) (file : String) :
    l.deliver storage held g root file =
      ⟨.ok (), l.setBook place (b.ingest storage root).1,
        .logged (.registering file) :: (b.ingest storage root).2⟩ := by
  simp only [deliver, hhandler, handle, hb, if_neg hheld]

end Phrasebook.Library
