import Mathlib.Data.List.Iterate
import Mathlib.Data.List.Nodup
import Phrasebook.Proofs.Book.Announcement

/-
  What a listener hears over a whole history of a book.

  Subscriptions are numbered in order. One is in force until its number is
  unsubscribed; as long as it is, its listener hears of every action that calls
  listeners, and of nothing else.

  What is proved:
    1. `listeners_run` — the listeners of a book are the subscriptions in force,
       in order.
    2. `issued_run`, `nodup_numbers` — the numbers are those from the first one
       up; less than 2^64 of them are all different.
    3. `heard_between` — what a listener hears: nothing before it is there, the
       news while it stays, and nothing once it is unsubscribed.
    4. `notification_trace` — the calls of each action of a history, and what a
       listener hears of the whole.
-/

namespace Phrasebook.Book

variable {storage : Storage} {b : Book} {handle : Nat}

/-! ## Histories -/

theorem run_append (storage : Storage) (actions actions' : List Action) (b : Book) :
    (run storage (actions ++ actions') b).state =
        (run storage actions' (run storage actions b).state).state ∧
      (run storage (actions ++ actions') b).events =
        (run storage actions b).events ++
          (run storage actions' (run storage actions b).state).events := by
  induction actions generalizing b with
  | nil => exact ⟨rfl, rfl⟩
  | cons action actions ih =>
    obtain ⟨hstate, hevents⟩ := ih (b.perform storage action).state
    refine ⟨hstate, ?_⟩
    simp only [List.cons_append, run, hevents, List.append_assoc]

def subscribers (actions : List Action) : List Nat :=
  actions.filterMap fun
    | .subscribe handle => some handle
    | _ => none

def unsubscribed (actions : List Action) : List UInt64 :=
  actions.filterMap fun
    | .unsubscribe id => some id
    | _ => none

/-- The subscriptions of a history that are in force at its end: those whose
number is not unsubscribed later on. The first one has the number `next`. -/
def subscribed (next : UInt64) : List Action → List Listener
  | [] => []
  | .subscribe handle :: rest =>
    if next ∈ unsubscribed rest then subscribed (next + 1) rest
    else ⟨next, handle⟩ :: subscribed (next + 1) rest
  | _ :: rest => subscribed next rest

/-- The numbers among replies. -/
def issued (replies : List Reply) : List UInt64 :=
  replies.filterMap fun
    | .listener id => some id
    | _ => none

/-! ## Who is listening -/

theorem perform_listeners (storage : Storage) (action : Action) (b : Book) :
    (b.perform storage action).state.listeners =
        (match action with
        | .subscribe handle => b.listeners ++ [⟨b.nextId, handle⟩]
        | .unsubscribe id => b.listeners.filter (·.id != id)
        | _ => b.listeners) ∧
      (b.perform storage action).state.nextId =
        match action with
        | .subscribe _ => b.nextId + 1
        | _ => b.nextId := by
  have hingest : ∀ root, (b.ingest storage root).1.listeners = b.listeners ∧
      (b.ingest storage root).1.nextId = b.nextId := by
    intro root
    rw [ingest, register_frame]
    exact ⟨rfl, rfl⟩
  cases action with
  | loadRegistration file =>
    rw [perform]
    cases hdocument : document? storage file with
    | none =>
      obtain ⟨failure, hturn⟩ := loadRegistration_of_none (b := b) hdocument
      rw [hturn]
      exact ⟨rfl, rfl⟩
    | some root =>
      rw [loadRegistration_of_document hdocument]
      exact hingest root
  | ingest root => exact hingest root
  | load scope file =>
    rw [perform, load_state]
    exact ⟨rfl, rfl⟩
  | switch name =>
    rw [perform]
    cases hfiles : b.packs.files? name with
    | none =>
      rw [switch_of_none storage hfiles]
      exact ⟨rfl, rfl⟩
    | some files =>
      rw [(switch_of_some storage hfiles).2]
      exact ⟨rfl, rfl⟩
  | text | resolve | addUserTag | clearUserTags | subscribe | unsubscribe | setFallback
    | clearFallback => exact ⟨rfl, rfl⟩

theorem listeners_run (storage : Storage) (actions : List Action) (b : Book) :
    (run storage actions b).state.listeners =
      b.listeners.filter (fun l => l.id ∉ unsubscribed actions) ++ subscribed b.nextId actions := by
  induction actions generalizing b with
  | nil => simp [run, unsubscribed, subscribed]
  | cons action actions ih =>
    obtain ⟨hlisteners, hnext⟩ := perform_listeners storage action b
    rw [run, ih, hlisteners, hnext]
    cases action with
    | subscribe handle =>
      have hunsubscribed : unsubscribed (.subscribe handle :: actions) = unsubscribed actions := rfl
      rw [hunsubscribed, subscribed, List.filter_append, List.append_assoc]
      by_cases hgone : b.nextId ∈ unsubscribed actions
      · simp [hgone]
      · simp [hgone]
    | unsubscribe id =>
      have hunsubscribed : unsubscribed (.unsubscribe id :: actions) = id :: unsubscribed actions :=
        rfl
      have hsubscribed : subscribed b.nextId (.unsubscribe id :: actions) =
        subscribed b.nextId actions := rfl
      rw [hunsubscribed, hsubscribed, List.filter_filter]
      congr 2
      funext l
      by_cases hl : l.id = id
      · simp [hl]
      · simp [hl]
    | _ => rfl

theorem handle_mem_of_subscribed {next : UInt64} {actions : List Action} {l : Listener}
    (h : l ∈ subscribed next actions) : l.handle ∈ subscribers actions := by
  induction actions generalizing next with
  | nil => cases h
  | cons action actions ih =>
    cases action with
    | subscribe handle =>
      have hsubscribers : subscribers (.subscribe handle :: actions) =
        handle :: subscribers actions := rfl
      rw [hsubscribers]
      rw [subscribed] at h
      split at h
      · exact List.mem_cons_of_mem _ (ih h)
      · rcases List.mem_cons.mp h with rfl | h
        · exact List.mem_cons_self
        · exact List.mem_cons_of_mem _ (ih h)
    | _ => exact ih h

/-! ## The numbers -/

theorem issued_run (storage : Storage) (actions : List Action) (b : Book) :
    issued (run storage actions b).answer =
      List.iterate (· + 1) b.nextId (subscribers actions).length := by
  induction actions generalizing b with
  | nil => rfl
  | cons action actions ih =>
    have hnext := (perform_listeners storage action b).2
    have hlater := ih (b.perform storage action).state
    rw [hnext] at hlater
    cases action with
    | subscribe handle => exact congrArg (b.nextId :: ·) hlater
    | _ => exact hlater

theorem subscribed_sublist (next : UInt64) (actions : List Action) :
    ((subscribed next actions).map (·.id)).Sublist
      (List.iterate (· + 1) next (subscribers actions).length) := by
  induction actions generalizing next with
  | nil => exact List.Sublist.slnil
  | cons action actions ih =>
    cases action with
    | subscribe handle =>
      rw [subscribed]
      split
      · exact (ih (next + 1)).cons next
      · exact (ih (next + 1)).cons_cons next
    | _ => exact ih next

theorem toNat_iterate {count : Nat} (h : count < 2 ^ 64) :
    ((· + 1)^[count] (0 : UInt64)).toNat = count := by
  induction count with
  | zero => rfl
  | succ count ih =>
    rw [Function.iterate_succ_apply', UInt64.toNat_add, ih (Nat.lt_of_succ_lt h)]
    exact Nat.mod_eq_of_lt h

/-- Less than 2^64 numbers do not repeat. -/
theorem nodup_numbers {count : Nat} (h : count < 2 ^ 64) :
    (List.iterate (· + 1) (0 : UInt64) count).Nodup := by
  rw [← List.range_map_iterate]
  refine List.Nodup.map_on (fun i hi j hj heq => ?_) List.nodup_range
  have hi := Nat.lt_trans (List.mem_range.mp hi) h
  have hj := Nat.lt_trans (List.mem_range.mp hj) h
  rw [← toNat_iterate hi, ← toNat_iterate hj, heq]

/-! ## What is heard -/

def heard (handle : Nat) (events : List Event) : List String :=
  (calls events).filterMap fun call => if call.1 = handle then some call.2 else none

/-- The languages that a history announces: for each action that calls the
listeners, the language in use right after it. -/
def news (storage : Storage) : List Action → Book → List String
  | [], _ => []
  | action :: rest, b =>
    let after := (b.perform storage action).state
    if action.notifies storage b then after.current :: news storage rest after
    else news storage rest after

/-- The subscriptions of a listener that are in force. -/
def ears (handle : Nat) (b : Book) : List Listener := b.listeners.filter (·.handle = handle)

theorem heard_append (handle : Nat) (events events' : List Event) :
    heard handle (events ++ events') = heard handle events ++ heard handle events' := by
  rw [heard, calls_append, List.filterMap_append]
  rfl

theorem heard_perform (storage : Storage) (handle : Nat) (action : Action) (b : Book) :
    heard handle (b.perform storage action).events =
      if action.notifies storage b then
        ((b.perform storage action).state.ears handle).map fun _ =>
          (b.perform storage action).state.current
      else [] := by
  rw [heard, (perform_announced storage action b).calls_eq]
  split
  · rw [List.filterMap_map, ears]
    induction (b.perform storage action).state.listeners with
    | nil => rfl
    | cons l listeners ih =>
      by_cases hl : l.handle = handle
      · simpa [hl] using ih
      · simpa [hl] using ih
  · rfl

theorem ears_run (storage : Storage) {actions : List Action} (h : handle ∉ subscribers actions)
    (b : Book) :
    (run storage actions b).state.ears handle =
      (b.ears handle).filter fun l => l.id ∉ unsubscribed actions := by
  have hnew : (subscribed b.nextId actions).filter (·.handle = handle) = [] := by
    rw [List.filter_eq_nil_iff]
    intro l hl
    have hmem := handle_mem_of_subscribed hl
    simp only [decide_eq_true_eq]
    rintro rfl
    exact h hmem
  rw [ears, listeners_run, List.filter_append, hnew, List.append_nil, ears, List.filter_comm]

theorem ears_perform (storage : Storage) {action : Action} (h : handle ∉ subscribers [action])
    (b : Book) :
    (b.perform storage action).state.ears handle =
      (b.ears handle).filter fun l => l.id ∉ unsubscribed [action] :=
  ears_run storage h b

theorem subscribers_append (actions actions' : List Action) :
    subscribers (actions ++ actions') = subscribers actions ++ subscribers actions' :=
  List.filterMap_append

theorem subscribers_cons (action : Action) (actions : List Action) :
    subscribers (action :: actions) = subscribers [action] ++ subscribers actions :=
  subscribers_append [action] actions

theorem unsubscribed_cons (action : Action) (actions : List Action) :
    unsubscribed (action :: actions) = unsubscribed [action] ++ unsubscribed actions :=
  List.filterMap_append (l := [action])

theorem heard_of_absent (storage : Storage) {actions : List Action} {b : Book}
    (hears : b.ears handle = []) (h : handle ∉ subscribers actions) :
    heard handle (run storage actions b).events = [] := by
  induction actions generalizing b with
  | nil => rfl
  | cons action actions ih =>
    rw [subscribers_cons, List.mem_append, not_or] at h
    have hafter : (b.perform storage action).state.ears handle = [] := by
      rw [ears_perform storage h.1, hears]
      rfl
    rw [run, heard_append, heard_perform, hafter, ih hafter h.2]
    simp

theorem heard_of_present (storage : Storage) {actions : List Action} {b : Book} {l : Listener}
    (hears : b.ears handle = [l]) (h : handle ∉ subscribers actions)
    (hkept : l.id ∉ unsubscribed actions) :
    heard handle (run storage actions b).events = news storage actions b := by
  induction actions generalizing b with
  | nil => rfl
  | cons action actions ih =>
    rw [subscribers_cons, List.mem_append, not_or] at h
    rw [unsubscribed_cons, List.mem_append, not_or] at hkept
    have hafter : (b.perform storage action).state.ears handle = [l] := by
      rw [ears_perform storage h.1, hears]
      simp [hkept.1]
    rw [run, heard_append, heard_perform, hafter, ih hafter h.2 hkept.2, news]
    split
    · rfl
    · rfl

theorem heard_of_unsubscribed (storage : Storage) {rest : List Action} {b : Book} {l : Listener}
    (hears : b.ears handle = [l]) (h : handle ∉ subscribers rest)
    (hrest : ∀ action ∈ rest.head?, action = .unsubscribe l.id) :
    heard handle (run storage rest b).events = [] := by
  cases rest with
  | nil => rfl
  | cons action rest =>
    obtain rfl := hrest action rfl
    rw [subscribers_cons, List.mem_append, not_or] at h
    have hgone : (b.perform storage (.unsubscribe l.id)).state.ears handle = [] := by
      rw [ears_perform storage h.1, hears]
      simp [unsubscribed]
    rw [run, heard_append, heard_perform, heard_of_absent storage hgone h.2, hgone]
    simp

/-- A listener that nobody else stands for hears, of a whole history, the news
between its subscription and its unsubscription. -/
theorem heard_between (storage : Storage) {before during rest : List Action} {b : Book}
    (hears : b.ears handle = [])
    (hhandle : handle ∉ subscribers (before ++ (during ++ rest)))
    (hkept : (run storage before b).state.nextId ∉ unsubscribed during)
    (hrest : ∀ action ∈ rest.head?, action = .unsubscribe (run storage before b).state.nextId) :
    heard handle (run storage (before ++ .subscribe handle :: (during ++ rest)) b).events =
      news storage during ((run storage before b).state.subscribe handle).2 := by
  rw [subscribers_append, subscribers_append, List.mem_append, List.mem_append, not_or,
    not_or] at hhandle
  obtain ⟨hbefore, hduring, hafter⟩ := hhandle
  let closed := (run storage before b).state
  let opened := (closed.subscribe handle).2
  have hopened : opened.ears handle = [⟨closed.nextId, handle⟩] := by
    have hlisteners : opened.listeners = closed.listeners ++ [⟨closed.nextId, handle⟩] := rfl
    have hclosed : closed.ears handle = [] := by
      rw [ears_run storage hbefore, hears]
      rfl
    rw [ears, hlisteners, List.filter_append, ← ears, hclosed]
    simp
  have hlast : (run storage during opened).state.ears handle = [⟨closed.nextId, handle⟩] := by
    rw [ears_run storage hduring, hopened]
    simp [closed, hkept]
  calc heard handle (run storage (before ++ .subscribe handle :: (during ++ rest)) b).events
      = heard handle (run storage before b).events ++
          heard handle (run storage (during ++ rest) opened).events := by
        rw [(run_append ..).2, heard_append]
        rfl
    _ = heard handle (run storage (during ++ rest) opened).events := by
        rw [heard_of_absent storage hears hbefore, List.nil_append]
    _ = heard handle (run storage during opened).events ++
          heard handle (run storage rest (run storage during opened).state).events := by
        rw [(run_append ..).2, heard_append]
    _ = news storage during opened := by
        rw [heard_of_present storage hopened hduring hkept,
          heard_of_unsubscribed storage hlast hafter hrest, List.append_nil]

/-- Every action of a history calls all listeners at its end, once each and in
order, with the language in use then, or nobody. A listener hears the news
between its subscription and its unsubscription. An unsubscription is granted
if there is one to take back, and takes it back. The numbers of less than
2^64 subscriptions are all different. -/
theorem notification_trace (storage : Storage) (maxPasses : Nat) (actions : List Action) :
    (∀ before action after, actions = before ++ action :: after →
      let b := (run storage before { maxPasses }).state
      let turn := b.perform storage action
      ∃ earlier, calls earlier = [] ∧
        turn.events = earlier ++
          if action.notifies storage b then
            (subscribed 0 before).map fun l => .changed l.handle turn.state.current
          else []) ∧
    (∀ before handle during rest, actions = before ++ .subscribe handle :: (during ++ rest) →
      handle ∉ subscribers (before ++ (during ++ rest)) →
      let b := (run storage before { maxPasses }).state
      let opened := b.perform storage (.subscribe handle)
      b.nextId ∉ unsubscribed during →
      (∀ action ∈ rest.head?, action = .unsubscribe b.nextId) →
      opened.answer = .listener b.nextId ∧
        heard handle (run storage actions { maxPasses }).events =
          news storage during opened.state) ∧
    (∀ before id after, actions = before ++ .unsubscribe id :: after →
      let b := (run storage before { maxPasses }).state
      let turn := b.perform storage (.unsubscribe id)
      turn.answer = .flag ((subscribed 0 before).any (·.id == id)) ∧
        turn.state = { b with listeners := (subscribed 0 before).filter (·.id != id) }) ∧
    ((subscribers actions).length < 2 ^ 64 →
      (issued (run storage actions { maxPasses }).answer).Nodup ∧
        ∀ before after, actions = before ++ after → ((subscribed 0 before).map (·.id)).Nodup) := by
  have hlisteners : ∀ before,
      (run storage before { maxPasses }).state.listeners = subscribed 0 before := by
    intro before
    rw [listeners_run]
    rfl
  refine ⟨?calls, ?hears, ?unsubscribes, fun hcount => ⟨?issues, ?inForce⟩⟩
  case calls =>
    rintro before action after - b turn
    obtain ⟨earlier, hearlier, hevents⟩ := perform_announced storage action b
    refine ⟨earlier, hearlier, ?_⟩
    rw [hevents]
    congr 1
    split
    · next htold =>
      have hkept : turn.state.listeners = b.listeners := by
        have := (perform_listeners storage action b).1
        cases action with
        | subscribe | unsubscribe => cases htold
        | _ => exact this
      rw [announce, hkept, hlisteners]
    · rfl
  case hears =>
    rintro before handle during rest rfl hhandle b opened hkept hrest
    exact ⟨rfl, heard_between storage rfl hhandle hkept hrest⟩
  case unsubscribes =>
    rintro before id after rfl b turn
    rw [← hlisteners]
    exact ⟨rfl, rfl⟩
  case issues =>
    rw [issued_run]
    exact nodup_numbers hcount
  case inForce =>
    rintro before after rfl
    refine (subscribed_sublist 0 before).nodup (nodup_numbers (Nat.lt_of_le_of_lt ?_ hcount))
    simp [subscribers]

/-- Two listeners, one of them for two switches only, and a switch that is not
granted. -/
def twoListeners : List Action :=
  [.ingest ⟨"R", [], [⟨"Language", [], [⟨"Info", [("name", "en")], [⟨"Source", [], [], "one"⟩],
      ""⟩], ""⟩], ""⟩,
    .subscribe 7, .switch "en", .switch "xx", .subscribe 8, .switch "en", .unsubscribe 0,
    .switch "en"]

theorem notification_trace_two :
    heard 7 (run Storage.empty twoListeners {}).events = ["en", "en"] ∧
      heard 8 (run Storage.empty twoListeners {}).events = ["en", "en"] ∧
      issued (run Storage.empty twoListeners {}).answer = [0, 1] ∧
      (issued (run Storage.empty twoListeners {}).answer).Nodup := by
  obtain ⟨-, hheard, -, hnumbers⟩ := notification_trace Storage.empty 64 twoListeners
  refine ⟨?_, ?_, by decide +kernel, (hnumbers (by decide)).1⟩
  · obtain ⟨-, hnews⟩ := hheard (twoListeners.take 1) 7 ((twoListeners.drop 2).take 4)
      (twoListeners.drop 6) rfl (by decide) (by decide +kernel)
      (fun action haction => by
        cases haction
        exact congrArg Action.unsubscribe (by decide +kernel))
    exact hnews.trans (by decide +kernel)
  · obtain ⟨-, hnews⟩ := hheard (twoListeners.take 4) 8 (twoListeners.drop 5) [] rfl (by decide)
      (by decide +kernel) (fun action haction => by cases haction)
    exact hnews.trans (by decide +kernel)

end Phrasebook.Book
