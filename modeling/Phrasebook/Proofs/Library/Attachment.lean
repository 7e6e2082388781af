import Mathlib
import Phrasebook.Proofs.Library.Step

/-
  Attached books, and the desks that hand them registrations.

  The flag `attached` stands with the book, and the handler with a desk, under
  the kind of registrations. Neither knows of the other: a book attached at a
  desk takes the place of whatever handler stood there, and a book detached
  from a desk takes away whatever handler stands there.

  What is proved:
    1. `attach_cases`, `detach_cases` — an attachment or a detachment either
       does nothing, or sets one flag and the handler of one desk.
    2. `agrees_perform_iff` — in a library where flags and handlers are paired
       they agree after one more step exactly if the step is orderly: a book is
       attached where no handler stands, and detached where its own stands.
    3. `agrees_iff_orderly` — so over a whole run, whatever its length; and what
       a detachment does to the desks; and three runs in which the flags and
       the handlers fall apart.
-/

namespace Phrasebook.Library

def registrar? (l : Library) (g : Nat) : Option Handler := (l.desk g)[registrationKind]?

/-- A desk hands registrations to the book at a place. -/
def Serves (l : Library) (g place : Nat) : Prop := l.registrar? g = some (.book place)

instance (l : Library) (g place : Nat) : Decidable (l.Serves g place) :=
  inferInstanceAs (Decidable (l.registrar? g = some (.book place)))

def Agrees (l : Library) : Prop :=
  ∀ place flag, l.flag? place = some flag → (flag = true ↔ ∃ g, l.Serves g place)

/-- A book is attached where no handler stands, and detached where its own
stands. A step that does nothing is orderly. -/
def Orderly (l : Library) : Operation → Prop
  | .attach place g held => held = false → l.flag? place = some false → l.registrar? g = none
  | .detach place g => l.flag? place = some true → l.Serves g place
  | _ => True

/-- Attaching a book at one of a number of desks, or detaching it from one. -/
def Operation.Connects (desks : Nat) : Operation → Prop
  | .attach _ g _ => g < desks
  | .detach _ g => g < desks
  | _ => False

variable {l l' : Library} {place g : Nat}

theorem lt_of_serves (h : l.Serves g place) : g < l.desks.length := by
  by_contra hge
  rw [Serves, registrar?, desk, List.getElem?_eq_none (Nat.le_of_not_lt hge)] at h
  simp at h

/-! ## What one step does -/

/-- One flag and the handler of one desk have been set. -/
structure Sets (l : Library) (place g : Nat) (flag : Bool) (handler : Option Handler)
    (l' : Library) : Prop where
  flag?_eq : ∀ p, l'.flag? p = if p = place then some flag else l.flag? p
  registrar?_eq : ∀ g', l'.registrar? g' = if g' = g then handler else l.registrar? g'
  length_eq : l'.desks.length = l.desks.length

theorem attach_cases (place : Nat) (hg : g < l.desks.length) (held : Bool) :
    ((held = true ∨ l.flag? place ≠ some false) ∧ (l.attach place g held).1 = l) ∨
      (held = false ∧ l.flag? place = some false ∧
        Sets l place g true (some (.book place)) (l.attach place g held).1) := by
  obtain hskip | ⟨hheld, hflag, b, hb, hstate⟩ := attach_inv l place g held
  · exact .inl hskip
  · refine .inr ⟨hheld, hflag, ?_⟩
    let installed := l.register g registrationKind (.book place)
    rw [hstate]
    refine ⟨flag?_setBook (l := installed) hb _, ?_, by simp [setBook, register]⟩
    intro g'
    show installed.handler? g' registrationKind = _
    rw [handler?_register]
    simp [hg, registrar?, handler?]

theorem detach_cases (l : Library) (place g : Nat) :
    (l.flag? place ≠ some true ∧ (l.detach place g).1 = l) ∨
      (l.flag? place = some true ∧ Sets l place g false none (l.detach place g).1) := by
  obtain hskip | ⟨hflag, b, hb, hstate⟩ := detach_inv l place g
  · exact .inl hskip
  · refine .inr ⟨hflag, ?_⟩
    let removed := (l.unregister g registrationKind).2
    rw [hstate]
    refine ⟨flag?_setBook (l := removed) hb _, ?_, by simp [setBook, unregister]⟩
    intro g'
    show removed.handler? g' registrationKind = _
    rw [handler?_unregister]
    simp [registrar?, handler?]

namespace Sets
variable {flag : Bool} {handler : Option Handler}

theorem flag?_self (h : Sets l place g flag handler l') : l'.flag? place = some flag := by
  rw [h.flag?_eq, if_pos rfl]

theorem flag?_of_ne (h : Sets l place g flag handler l') {p : Nat} (hp : p ≠ place) :
    l'.flag? p = l.flag? p := by
  rw [h.flag?_eq, if_neg hp]

theorem isSome_flag? (h : Sets l place g flag handler l') {p : Nat} (hp : (l.flag? p).isSome) :
    (l'.flag? p).isSome := by
  rw [h.flag?_eq]
  split
  · rfl
  · exact hp

/-- A book that the new handler is not for is served where it was before, but
for the one desk. -/
theorem serves_iff (h : Sets l place g flag handler l') {p : Nat}
    (hp : handler ≠ some (.book p)) (g' : Nat) : l'.Serves g' p ↔ l.Serves g' p ∧ g' ≠ g := by
  rw [Serves, h.registrar?_eq]
  by_cases hg : g' = g
  · simp [hg, hp]
  · simp [hg, Serves]

theorem serves_of_installed (h : Sets l place g flag (some (.book place)) l') {p : Nat}
    (hp : p ≠ place) (g' : Nat) : l'.Serves g' p ↔ l.Serves g' p ∧ g' ≠ g :=
  h.serves_iff (by simpa using Ne.symm hp) g'

theorem serves_of_removed (h : Sets l place g flag none l') (p g' : Nat) :
    l'.Serves g' p ↔ l.Serves g' p ∧ g' ≠ g :=
  h.serves_iff nofun g'

end Sets

/-! ## Flags and handlers that are paired -/

/-- Flags and handlers agree, no book is served at two desks, and only books of
the library are served. -/
structure Paired (l : Library) : Prop where
  agrees : Agrees l
  single : ∀ {g g' place : Nat}, l.Serves g place → l.Serves g' place → g = g'
  books : ∀ {g : Nat} {handler : Handler}, l.registrar? g = some handler →
    ∃ place, handler = .book place ∧ (l.flag? place).isSome

theorem paired_fresh (bounds : List Nat) (desks : Nat) : Paired (fresh bounds desks) := by
  have hdesk : ∀ g, (fresh bounds desks).registrar? g = none := by
    intro g
    exact handler?_of_empty (desks_fresh bounds desks) g registrationKind
  have hserves : ∀ g place, ¬(fresh bounds desks).Serves g place := by
    intro g place h
    rw [Serves, hdesk] at h
    cases h
  refine ⟨fun place flag hflag => ?_, fun h => absurd h (hserves _ _), fun h => ?_⟩
  · have hfalse : flag = false := by
      rw [flag?, book?, fresh, List.getElem?_map] at hflag
      cases hbound : bounds[place]? with
      | none => simp [hbound] at hflag
      | some maxPasses => simpa [hbound] using hflag.symm
    simp [hfalse, hserves]
  · rw [hdesk] at h
    cases h

namespace Paired

theorem flag?_of_serves (h : Paired l) (hserves : l.Serves g place) :
    l.flag? place = some true := by
  obtain ⟨p, hp, hsome⟩ := h.books hserves
  cases hp
  obtain ⟨flag, hflag⟩ := Option.isSome_iff_exists.mp hsome
  rw [hflag, (h.agrees place flag hflag).mpr ⟨g, hserves⟩]

theorem not_serves (h : Paired l) (hflag : l.flag? place = some false) (g : Nat) :
    ¬l.Serves g place := by
  intro hserves
  have := h.flag?_of_serves hserves
  rw [hflag] at this
  cases this

/-! An attachment -/

section
variable (h : Paired l) (hflag : l.flag? place = some false)
  (hsets : Sets l place g true (some (.book place)) l')
include h hflag hsets

theorem agrees_attached_iff : Agrees l' ↔ l.registrar? g = none := by
  have hself : l'.Serves g place := by rw [Serves, hsets.registrar?_eq, if_pos rfl]
  constructor
  · intro hagrees
    rw [Option.eq_none_iff_forall_ne_some]
    intro handler hhandler
    -- the book that was served at the desk is attached, and served no more
    obtain ⟨p, rfl, -⟩ := h.books hhandler
    have htrue := h.flag?_of_serves hhandler
    have hp : p ≠ place := by
      rintro rfl
      rw [hflag] at htrue
      cases htrue
    obtain ⟨g', hg'⟩ := (hagrees p true (by rw [hsets.flag?_of_ne hp, htrue])).mp rfl
    obtain ⟨hserves, hne⟩ := (hsets.serves_of_installed hp g').mp hg'
    exact hne (h.single hserves hhandler)
  · intro hnone p flag hp
    by_cases hplace : p = place
    · subst hplace
      rw [hsets.flag?_self] at hp
      cases hp
      exact ⟨fun _ => ⟨g, hself⟩, fun _ => rfl⟩
    · rw [hsets.flag?_of_ne hplace] at hp
      rw [h.agrees p flag hp]
      refine exists_congr fun g' => ?_
      rw [hsets.serves_of_installed hplace, iff_self_and]
      rintro hserves rfl
      rw [Serves, hnone] at hserves
      cases hserves

theorem attached (hagrees : Agrees l') : Paired l' := by
  have hplace : ∀ g', l'.Serves g' place → g' = g := by
    intro g' hserves
    by_contra hne
    rw [Serves, hsets.registrar?_eq, if_neg hne] at hserves
    exact h.not_serves hflag g' hserves
  refine ⟨hagrees, fun {g₁ g₂ p} h₁ h₂ => ?_, fun {g' handler} hhandler => ?_⟩
  · by_cases hp : p = place
    · subst hp
      rw [hplace g₁ h₁, hplace g₂ h₂]
    · obtain ⟨hbefore₁, -⟩ := (hsets.serves_of_installed hp g₁).mp h₁
      obtain ⟨hbefore₂, -⟩ := (hsets.serves_of_installed hp g₂).mp h₂
      exact h.single hbefore₁ hbefore₂
  · rw [hsets.registrar?_eq] at hhandler
    split at hhandler
    · cases hhandler
      exact ⟨place, rfl, by rw [hsets.flag?_self]; rfl⟩
    · obtain ⟨p, rfl, hsome⟩ := h.books hhandler
      exact ⟨p, rfl, hsets.isSome_flag? hsome⟩

end

/-! A detachment -/

section
variable (h : Paired l) (hflag : l.flag? place = some true) (hsets : Sets l place g false none l')
include h hsets

include hflag in
theorem agrees_detached_iff : Agrees l' ↔ l.Serves g place := by
  constructor
  · intro hagrees
    obtain ⟨g', hg'⟩ := (h.agrees place true hflag).mp rfl
    by_contra hnot
    -- the desk that the book is detached from is not the one that serves it
    have hne : g' ≠ g := by
      rintro rfl
      exact hnot hg'
    have hstill : l'.Serves g' place := (hsets.serves_of_removed place g').mpr ⟨hg', hne⟩
    have hattached := (hagrees place false hsets.flag?_self).mpr ⟨g', hstill⟩
    cases hattached
  · intro hself p flag hp
    by_cases hplace : p = place
    · subst hplace
      rw [hsets.flag?_self] at hp
      cases hp
      refine ⟨nofun, ?_⟩
      rintro ⟨g', hg'⟩
      obtain ⟨hbefore, hne⟩ := (hsets.serves_of_removed p g').mp hg'
      exact absurd (h.single hbefore hself) hne
    · rw [hsets.flag?_of_ne hplace] at hp
      rw [h.agrees p flag hp]
      refine exists_congr fun g' => ?_
      rw [hsets.serves_of_removed, iff_self_and]
      rintro hother rfl
      rw [Serves] at hself hother
      rw [hself] at hother
      cases hother
      exact hplace rfl

theorem detached (hagrees : Agrees l') : Paired l' := by
  refine ⟨hagrees, fun {g₁ g₂ p} h₁ h₂ => ?_, fun {g' handler} hhandler => ?_⟩
  · obtain ⟨hbefore₁, -⟩ := (hsets.serves_of_removed p g₁).mp h₁
    obtain ⟨hbefore₂, -⟩ := (hsets.serves_of_removed p g₂).mp h₂
    exact h.single hbefore₁ hbefore₂
  · rw [hsets.registrar?_eq] at hhandler
    split at hhandler
    · cases hhandler
    · obtain ⟨p, rfl, hsome⟩ := h.books hhandler
      exact ⟨p, rfl, hsets.isSome_flag? hsome⟩

end

end Paired

/-! ## Runs -/

section
variable {storage : Storage} {operation : Operation}

/-- What one step comes to: nothing, an attachment, or a detachment. -/
theorem perform_cases (storage : Storage) (hconnects : operation.Connects l.desks.length) :
    (Orderly l operation ∧ (l.perform storage operation).state = l) ∨
      (∃ place g, operation = .attach place g false ∧ l.flag? place = some false ∧
        Sets l place g true (some (.book place)) (l.perform storage operation).state) ∨
      ∃ place g, operation = .detach place g ∧ l.flag? place = some true ∧
        Sets l place g false none (l.perform storage operation).state := by
  cases operation with
  | attach place g held =>
    obtain ⟨hskip, hstate⟩ | ⟨rfl, hflag, hsets⟩ := attach_cases place hconnects held
    · refine .inl ⟨fun hheld hflag => ?_, hstate⟩
      rcases hskip with htrue | hne
      · rw [hheld] at htrue
        cases htrue
      · exact absurd hflag hne
    · exact .inr (.inl ⟨place, g, rfl, hflag, hsets⟩)
  | detach place g =>
    obtain ⟨hskip, hstate⟩ | ⟨hflag, hsets⟩ := detach_cases l place g
    · exact .inl ⟨fun hflag => absurd hflag hskip, hstate⟩
    · exact .inr (.inr ⟨place, g, rfl, hflag, hsets⟩)
  | _ => exact hconnects.elim

theorem agrees_perform_iff (storage : Storage) (h : Paired l)
    (hconnects : operation.Connects l.desks.length) :
    Agrees (l.perform storage operation).state ↔ Orderly l operation := by
  obtain ⟨horderly, hstate⟩ | ⟨place, g, rfl, hflag, hsets⟩ | ⟨place, g, rfl, hflag, hsets⟩ :=
    perform_cases storage hconnects
  · rw [hstate]
    exact ⟨fun _ => horderly, fun _ => h.agrees⟩
  · rw [h.agrees_attached_iff hflag hsets]
    exact ⟨fun hnone _ _ => hnone, fun horderly => horderly rfl hflag⟩
  · rw [h.agrees_detached_iff hflag hsets]
    exact ⟨fun hserves _ => hserves, fun horderly => horderly hflag⟩

theorem paired_perform (h : Paired l) (hconnects : operation.Connects l.desks.length)
    (hagrees : Agrees (l.perform storage operation).state) :
    Paired (l.perform storage operation).state := by
  obtain ⟨-, hstate⟩ | ⟨place, g, rfl, hflag, hsets⟩ | ⟨place, g, rfl, -, hsets⟩ :=
    perform_cases storage hconnects
  · rw [hstate]
    exact h
  · exact h.attached hflag hsets hagrees
  · exact h.detached hsets hagrees

theorem length_desks_perform (storage : Storage)
    (hconnects : operation.Connects l.desks.length) :
    (l.perform storage operation).state.desks.length = l.desks.length := by
  obtain ⟨-, hstate⟩ | ⟨place, g, rfl, -, hsets⟩ | ⟨place, g, rfl, -, hsets⟩ :=
    perform_cases storage hconnects
  · rw [hstate]
  · exact hsets.length_eq
  · exact hsets.length_eq

theorem agrees_run_iff {operations : List Operation} (h : Paired l)
    (hconnects : ∀ operation ∈ operations, operation.Connects l.desks.length) :
    (∀ before after, operations = before ++ after → Agrees (run storage before l).state) ↔
      ∀ before operation after, operations = before ++ operation :: after →
        Orderly (run storage before l).state operation := by
  induction operations generalizing l with
  | nil =>
    refine ⟨fun _ before operation after heq => by simp at heq, fun _ before after heq => ?_⟩
    obtain ⟨rfl, -⟩ := List.append_eq_nil_iff.mp heq.symm
    exact h.agrees
  | cons first rest ih =>
    obtain ⟨hfirst, hrest⟩ := List.forall_mem_cons.mp hconnects
    have hlength := length_desks_perform storage hfirst
    have hstep := agrees_perform_iff storage h hfirst
    -- once the first step has kept the agreement, the rest is a run of its own
    have hlater (hagrees : Agrees (l.perform storage first).state) :=
      ih (paired_perform h hfirst hagrees) (by rwa [hlength])
    constructor
    · intro hall before operation after heq
      have hagrees : Agrees (l.perform storage first).state := hall [first] rest rfl
      cases before with
      | nil =>
        cases heq
        exact hstep.mp hagrees
      | cons _ before =>
        cases heq
        exact (hlater hagrees).mp (fun b a hba => hall (first :: b) a (by rw [hba]; rfl))
          before operation after rfl
    · intro hall before after heq
      cases before with
      | nil => exact h.agrees
      | cons _ before =>
        cases heq
        have hagrees := hstep.mpr (hall [] first _ rfl)
        exact (hlater hagrees).mpr (fun b o a hba => hall (first :: b) o a (by rw [hba]; rfl))
          before after rfl

/-- Where books are attached and detached, the flags agree with the handlers
all along exactly if every step is orderly. A detachment leaves its book
served nowhere exactly if no other desk serves it, and leaves the other books
as they are served exactly if its desk serves none of them. -/
theorem agrees_iff_orderly (storage : Storage) (bounds : List Nat) (desks : Nat)
    (operations : List Operation)
    (hconnects : ∀ operation ∈ operations, operation.Connects desks) :
    ((∀ before after, operations = before ++ after →
        Agrees (run storage before (fresh bounds desks)).state) ↔
      ∀ before operation after, operations = before ++ operation :: after →
        Orderly (run storage before (fresh bounds desks)).state operation) ∧
    ∀ before place g after, operations = before ++ .detach place g :: after →
      let l := (run storage before (fresh bounds desks)).state
      let l' := (l.perform storage (.detach place g)).state
      l.flag? place = some true →
        ((∀ g', ¬l'.Serves g' place) ↔ ∀ g', l.Serves g' place → g' = g) ∧
        ((∀ g' p, p ≠ place → (l'.Serves g' p ↔ l.Serves g' p)) ↔
          ∀ p, l.Serves g p → p = place) := by
  refine ⟨agrees_run_iff (paired_fresh bounds desks) (by simpa [fresh] using hconnects), ?_⟩
  intro before place g after _ l l' hflag
  have hserves : ∀ p g', l'.Serves g' p ↔ l.Serves g' p ∧ g' ≠ g := by
    obtain ⟨hskip, -⟩ | ⟨-, hsets⟩ := detach_cases l place g
    · exact absurd hflag hskip
    · exact hsets.serves_of_removed
  refine ⟨?_, ?_, ?_⟩
  · refine forall_congr' fun g' => ?_
    rw [hserves, not_and, not_not]
  · intro hkept p hp
    by_contra hne
    exact ((hserves p g).mp ((hkept g p hne).mpr hp)).2 rfl
  · intro honly g' p hne
    rw [hserves, and_iff_left_iff_imp]
    rintro hp rfl
    exact hne (honly p hp)

end

/-- Two books at two desks, and one of them detached again. -/
def twoDesks : List Operation := [.attach 0 0 false, .attach 1 1 false, .detach 0 0]

theorem agrees_two_desks :
    (∀ operation ∈ twoDesks, operation.Connects 2) ∧
      (∀ before after, twoDesks = before ++ after →
        Agrees (run Storage.empty before (fresh [64, 64] 2)).state) ∧
      ∀ g, ¬(run Storage.empty twoDesks (fresh [64, 64] 2)).state.Serves g 0 := by
  have hconnects : ∀ operation ∈ twoDesks, operation.Connects 2 := by
    simp [twoDesks, Operation.Connects]
  obtain ⟨hagrees, hdetach⟩ := agrees_iff_orderly Storage.empty [64, 64] 2 twoDesks hconnects
  refine ⟨hconnects, hagrees.mpr fun before operation after heq => ?orderly, ?gone⟩
  case orderly =>
    rcases before with _ | ⟨first, _ | ⟨second, _ | ⟨third, before⟩⟩⟩
    · cases heq
      intro _ _
      decide +kernel
    · cases heq
      intro _ _
      decide +kernel
    · cases heq
      intro _
      decide +kernel
    · simp [twoDesks] at heq
  case gone =>
    let l := (run Storage.empty (twoDesks.take 2) (fresh [64, 64] 2)).state
    have hflag : l.flag? 0 = some true := by decide +kernel
    have honly : ∀ g < l.desks.length, l.Serves g 0 → g = 0 := by decide +kernel
    exact (hdetach (twoDesks.take 2) 0 0 [] rfl hflag).1.mpr fun g hserves =>
      honly g (lt_of_serves hserves) hserves

/-- The flag of a book tells nothing of its handler once another book has been
attached at its desk, or it has been detached from the desk of another; and
either way it is the handler of the other book that goes. -/
theorem flag_without_handler :
    (let l := (run Storage.empty [.attach 0 0 false, .attach 1 0 false] (fresh [64, 64] 2)).state
     l.flag? 0 = some true ∧ (∀ g, ¬l.Serves g 0) ∧ l.Serves 0 1 ∧
       let l' := (l.perform Storage.empty (.detach 0 0)).state
       ¬l'.Serves 0 1 ∧ l'.flag? 1 = some true) ∧
    (let l := (run Storage.empty [.attach 0 0 false, .attach 1 1 false] (fresh [64, 64] 2)).state
     l.flag? 0 = some true ∧ l.Serves 1 1 ∧
       let l' := (l.perform Storage.empty (.detach 0 1)).state
       l'.flag? 0 = some false ∧ l'.Serves 0 0 ∧ l'.flag? 1 = some true ∧ ¬l'.Serves 1 1) := by
  refine ⟨?replaced, by decide +kernel⟩
  case replaced =>
    intro l
    have hnot : ∀ g < l.desks.length, ¬l.Serves g 0 := by decide +kernel
    exact ⟨by decide +kernel, fun g hserves => hnot g (lt_of_serves hserves) hserves,
      by decide +kernel⟩

end Phrasebook.Library
