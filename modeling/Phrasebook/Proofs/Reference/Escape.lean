import Phrasebook.Proofs.Reference.Iteration

/-
  What later passes make of an escaped reference.

  `##{name}` is read as `##`, plain text and a brace, unless a `#{` in the name
  is open at its end: the brace closes it then, and the reference inside is
  asked for like any other. And it is read as `##` only if a token begins at
  its first `#`.

  What is proved:
    1. `tokens_escaped` — what an escaped reference is read as by itself, and
       what is asked for in it.
    2. `inert_iff` — in a text nothing in it is asked for, and no reference
       overlaps it, exactly if nothing is open in the name and the text before
       it is closed.
    3. `settled_again_iff` — what an expansion has settled on is settled on
       again exactly if nothing was open in the names it escaped last.
    4. `escaped_kept_iff` — both, for all passes of an expansion; and inputs on
       which an escaped reference is not kept.
-/

namespace Phrasebook.Reference

/-- What stands open in a tail, to be closed by the next brace. -/
def Tail.open? : Tail → Option String
  | .unclosed rest => some (String.ofList rest)
  | _ => none

/-- What stands open at the end of a name. -/
def inside? (name : List Char) : Option String := (tokens name).2.open?

/-- Nothing stands open at the end of a name. -/
def Shut (name : List Char) : Prop := inside? name = none

instance (name : List Char) : Decidable (Shut name) :=
  inferInstanceAs (Decidable (inside? name = none))

/-! ## An escaped reference by itself -/

theorem names_of_no_close {row : List Token} (h : '}' ∉ written row) : names row = [] := by
  induction row with
  | nil => rfl
  | cons t row ih =>
    rw [written_cons, List.mem_append, not_or] at h
    cases t with
    | plain c => exact ih h.2
    | pair c => exact ih h.2
    | reference name => exact absurd (by simp [Token.chars]) h.1

theorem names_tokens_of_no_close {text : List Char} (h : '}' ∉ text) :
    names (tokens text).1 = [] := by
  refine names_of_no_close fun hmem => h ?_
  rw [← written_tokens text]
  exact List.mem_append_left _ hmem

theorem tokens_tail_close {tail : Tail} (h : tail.Proper) :
    ∃ row, tokens (tail.chars ++ ['}']) = (row, .empty) ∧ names row = tail.open?.toList := by
  cases tail with
  | empty => exact ⟨[.plain '}'], @tokens_token (.plain '}') (by simp [Token.Proper]), rfl⟩
  | hash => exact ⟨[.pair '}'], @tokens_token (.pair '}') (by simp [Token.Proper]), rfl⟩
  | unclosed rest => exact ⟨[.reference rest], @tokens_token (.reference rest) h, rfl⟩

/-- The brace behind a name closes what stands open in it. -/
theorem tokens_close {name : List Char} (h : '}' ∉ name) :
    ∃ row, tokens (name ++ ['}']) = (row, .empty) ∧ names row = (inside? name).toList := by
  obtain ⟨proper, proper_tail, written_eq⟩ := reads_tokens name
  obtain ⟨row, hrow, hnames⟩ := tokens_tail_close proper_tail
  refine ⟨(tokens name).1 ++ row, ?_, ?_⟩
  · have := tokens_written_append proper ((tokens name).2.chars ++ ['}'])
    rwa [← List.append_assoc, written_eq, hrow] at this
  · rw [names_append, names_tokens_of_no_close h, hnames, List.nil_append]
    rfl

/-- An escaped reference is closed, and what stands open in its name is asked
for. -/
theorem tokens_escaped {name : List Char} (h : '}' ∉ name) :
    ∃ row, tokens (escaped name) = (row, .empty) ∧ names row = (inside? name).toList := by
  obtain ⟨row, hrow, hnames⟩ := tokens_close h
  refine ⟨.pair '#' :: .plain '{' :: row, ?_, hnames⟩
  have := tokens_pair (c := '#') (by decide) ('{' :: (name ++ ['}']))
  rwa [tokens_plain (c := '{') (by decide), hrow] at this

theorem closed_token {t : Token} (h : t.Proper) : Closed t.chars := by
  rw [Closed, tokens_token h]

theorem closed_escaped {name : List Char} (h : '}' ∉ name) : Closed (escaped name) := by
  obtain ⟨row, hrow, -⟩ := tokens_escaped h
  rw [Closed, hrow]

theorem names_escaped {name : List Char} (h : '}' ∉ name) :
    names (tokens (escaped name)).1 = (inside? name).toList := by
  obtain ⟨row, hrow, hnames⟩ := tokens_escaped h
  rw [hrow, hnames]

theorem shut_of_no_hash {name : List Char} (h : '#' ∉ name) : Shut name := by
  rw [Shut, inside?, tokens_of_no_hash h]
  rfl

/-! ## An escaped reference in a text -/

/-- The reading of `##{name}` between two texts begins and ends where it does,
and nothing is asked for in it. -/
def Inert (before name after : List Char) : Prop :=
  ∃ row₁ row₂ row₃ tail,
    tokens (before ++ (escaped name ++ after)) = (row₁ ++ (row₂ ++ row₃), tail) ∧
      written row₁ = before ∧ written row₂ = escaped name ∧ names row₂ = []

theorem inert_iff {before name after : List Char} (h : '}' ∉ name) :
    Inert before name after ↔ Closed before ∧ Shut name := by
  constructor
  -- rows of a reading are rows of proper tokens: each is read by itself
  · rintro ⟨row₁, row₂, row₃, tail, hread, rfl, h₂, hnames⟩
    have proper := proper_tokens (written row₁ ++ (escaped name ++ after))
    rw [hread] at proper
    simp only [List.mem_append] at proper
    refine ⟨closed_written fun t ht => proper t (.inl ht), ?_⟩
    have hrow := tokens_written fun t ht => proper t (.inr (.inl ht))
    have hinside := names_escaped h
    rw [← h₂, hrow, hnames] at hinside
    exact Option.toList_eq_nil_iff.mp hinside.symm
  · rintro ⟨hbefore, hname⟩
    have hnames : names (tokens (escaped name)).1 = [] := by
      rw [names_escaped h, hname]
      rfl
    refine ⟨(tokens before).1, (tokens (escaped name)).1, (tokens after).1, (tokens after).2, ?_,
      written_tokens_of_closed hbefore, written_tokens_of_closed (closed_escaped h), hnames⟩
    rw [tokens_append hbefore, tokens_append (closed_escaped h)]

/-! ## The text an expansion settles on -/

section
variable {answer : String → Option String} {text : List Char}

theorem names_split {row : List Token} (h : names row ≠ []) :
    ∃ before name after, row = before ++ .reference name :: after ∧ names before = [] := by
  induction row with
  | nil => exact absurd rfl h
  | cons t row ih =>
    cases t with
    | plain c =>
      obtain ⟨before, name, after, rfl, hbefore⟩ := ih h
      exact ⟨.plain c :: before, name, after, rfl, hbefore⟩
    | pair c =>
      obtain ⟨before, name, after, rfl, hbefore⟩ := ih h
      exact ⟨.pair c :: before, name, after, rfl, hbefore⟩
    | reference name => exact ⟨[], name, row, rfl, rfl⟩

/-- A text that asks for something begins, behind what asks for nothing, with
a reference. -/
theorem first_reference (h : names (tokens text).1 ≠ []) :
    ∃ before name after, Closed before ∧ names (tokens before).1 = [] ∧
      text = before ++ (Token.chars (.reference name) ++ after) := by
  obtain ⟨row, name, row', hrow, hnames⟩ := names_split h
  obtain ⟨proper, -, written_eq⟩ := reads_tokens text
  rw [hrow] at proper written_eq
  rw [written_append, written_cons, List.append_assoc, List.append_assoc] at written_eq
  have hp : ∀ t ∈ row, t.Proper := fun t ht => proper t (List.mem_append_left _ ht)
  have hbefore : names (tokens (written row)).1 = [] := by rw [tokens_written hp, hnames]
  exact ⟨written row, name, _, closed_written hp, hbefore, written_eq.symm⟩

theorem closed_put_of_declined (h : Answered answer text = false) :
    ∀ t ∈ (tokens text).1, Closed (put answer t) := by
  intro t ht
  have hp := proper_tokens _ _ ht
  cases t with
  | plain c => exact closed_token hp
  | pair c => exact closed_token hp
  | reference name =>
    have hmem : String.ofList name ∈ names (tokens text).1 := by
      rw [mem_names_iff, String.toList_ofList]
      exact ht
    rw [put, answered_eq_false_iff.mp h _ hmem]
    exact closed_escaped hp

/-- Where all names are declined, the next pass asks for what stands open in
them. -/
theorem mem_names_step_of_declined (h : Answered answer text = false) (u : String) :
    u ∈ names (tokens (step answer text)).1 ↔
      ∃ n ∈ names (tokens text).1, inside? n.toList = some u := by
  have hdeclined := answered_eq_false_iff.mp h
  refine mem_names_step_iff (fun n u => inside? n.toList = some u) (closed_put_of_declined h)
    (fun t ht u => ?_) u
  have hp := proper_tokens _ _ ht
  cases t with
  | plain c => simp [put, tokens_token hp]
  | pair c => simp [put, tokens_token hp]
  | reference name =>
    have hmem := mem_names_iff_exists.mpr ⟨_, ht, List.mem_singleton_self _⟩
    rw [put, hdeclined _ hmem, filled, names_escaped hp]
    simp

theorem names_step_eq_nil_iff (h : Answered answer text = false) :
    names (tokens (step answer text)).1 = [] ↔ ∀ n ∈ names (tokens text).1, Shut n.toList := by
  simp only [List.eq_nil_iff_forall_not_mem, mem_names_step_of_declined h, Shut,
    Option.eq_none_iff_forall_ne_some]
  constructor
  · intro hnone n hn u hu
    exact hnone u ⟨n, hn, hu⟩
  · rintro hnone u ⟨n, hn, hu⟩
    exact hnone n hn u hu

/-- A pass in which all names are declined does not begin a text with a
reference. -/
theorem step_ne_reference (h : Answered answer text = false) (name after : List Char) :
    step answer text ≠ Token.chars (.reference name) ++ after := by
  have hdeclined := answered_eq_false_iff.mp h
  obtain ⟨proper, proper_tail, -⟩ := reads_tokens text
  intro heq
  rw [step] at heq
  cases hrow : (tokens text).1 with
  -- no token: what is left is the tail, and none of them closes a reference
  | nil =>
    rw [hrow] at heq
    cases htail : (tokens text).2 with
    | empty => rw [htail] at heq; cases heq
    | hash => rw [htail] at heq; cases heq
    | unclosed rest =>
      rw [htail] at heq proper_tail
      cases heq
      exact proper_tail (by simp)
  -- a token: only a declined reference begins with `#` and a character kept
  -- apart from it, and that is another `#`
  | cons t row =>
    rw [hrow] at heq hdeclined proper
    have hp := proper t List.mem_cons_self
    cases t with
    | plain c => exact hp (List.head_eq_of_cons_eq heq)
    | pair c => exact hp (List.head_eq_of_cons_eq (List.tail_eq_of_cons_eq heq))
    | reference inner =>
      rw [List.flatMap_cons, put, hdeclined _ List.mem_cons_self] at heq
      cases heq

/-- A pass leaves the beginning of a text in its place if it is closed and
asks for nothing. -/
theorem iterate_step_append {before : List Char} (hclosed : Closed before)
    (hnames : names (tokens before).1 = []) (k : Nat) (after : List Char) :
    (step answer)^[k] (before ++ after) = before ++ (step answer)^[k] after := by
  induction k generalizing after with
  | zero => rfl
  | succ k ih =>
    rw [Function.iterate_succ_apply, step_append hclosed, step_of_names_nil hnames, ih,
      Function.iterate_succ_apply]

/-- What an expansion has settled on is settled on again if nothing stands
open in the names it has escaped in its last pass, and only then. -/
theorem settled_again_iff (h : Answered answer text = false) (maxPasses : Nat) :
    let result := String.ofList (step answer text)
    let again := expand (Lookup.pure answer) maxPasses result ()
    again.stop = .settled ∧ again.text = result ↔
      ∀ n ∈ names (tokens text).1, Shut n.toList := by
  intro result again
  constructor
  · rintro ⟨hstop, htext⟩
    by_contra hopen
    -- up to the first open name the result stays as it is in every pass
    obtain ⟨before, name, after, hclosed, hbefore, hsplit⟩ :=
      first_reference (mt (names_step_eq_nil_iff h).mp hopen)
    obtain ⟨hlast, hdeclined⟩ : again.text = textAfter answer (again.passes + 1) result ∧
      Answered answer (textAfter answer again.passes result).toList = false :=
        settled_of_expand hstop
    rw [htext] at hlast
    simp only [result, textAfter_eq_iterate, String.toList_ofList, hsplit,
      iterate_step_append hclosed hbefore, Function.iterate_succ_apply', String.ofList_inj,
      List.append_cancel_left_eq] at hlast hdeclined
    -- so the last pass has begun what follows with a reference
    refine step_ne_reference ?_ name after hlast.symm
    rw [answered_eq_false_iff, tokens_append hclosed, names_append] at hdeclined
    exact answered_eq_false_iff.mpr fun n hn => hdeclined n (List.mem_append_right _ hn)
  · intro hshut
    have hnames : names (tokens result.toList).1 = [] := by
      rw [String.toList_ofList]
      exact (names_step_eq_nil_iff h).mpr hshut
    have hpass := pass_of_names_nil (Lookup.pure answer) hnames ()
    have hagain : again = ⟨result, 0, .settled, ()⟩ := by
      refine expand_of_run ?_
      rw [run_settled 0 (by rw [hpass]), hpass]
    rw [hagain]
    exact ⟨rfl, rfl⟩

/-! ## An escaped reference in later passes -/

theorem step_of_declined {row row' : List Token} {name : List Char} {tail : Tail}
    (h : tokens text = (row ++ .reference name :: row', tail))
    (hdeclined : answer (String.ofList name) = none) :
    step answer text =
      row.flatMap (put answer) ++ (escaped name ++ (row'.flatMap (put answer) ++ tail.chars)) := by
  rw [step, h, List.flatMap_append, List.flatMap_cons, put, hdeclined]
  simp only [filled, List.append_assoc]

/-- What is escaped stays as long as the text before it is closed. -/
theorem iterate_step_escaped {before name : List Char} (hname : '}' ∉ name) (hshut : Shut name)
    {later : Nat} (hclosed : ∀ j < later, Closed ((step answer)^[j] before)) (after : List Char) :
    (step answer)^[later] (before ++ (escaped name ++ after)) =
      (step answer)^[later] before ++ (escaped name ++ (step answer)^[later] after) := by
  have hnames : names (tokens (escaped name)).1 = [] := by
    rw [names_escaped hname, hshut]
    rfl
  induction later with
  | zero => rfl
  | succ later ih =>
    simp only [Function.iterate_succ_apply']
    have hbefore := hclosed later (Nat.lt_succ_self later)
    rw [ih fun j hj => hclosed j (Nat.lt_succ_of_lt hj), step_append hbefore,
      step_append (closed_escaped hname), step_of_names_nil hnames]

/-- The passes after the one that escaped a reference leave it in its place and
ask for nothing in it, if nothing stands open in its name and what is before
it stays closed, and only then. -/
theorem inert_later_iff {passes : Nat} {input : String} {row row' : List Token} {name : List Char}
    {tail : Tail}
    (h : tokens (textAfter answer passes input).toList = (row ++ .reference name :: row', tail))
    (hdeclined : answer (String.ofList name) = none) (later : Nat) :
    let front := row.flatMap (put answer)
    let back := row'.flatMap (put answer) ++ tail.chars
    (∀ j ≤ later,
      textAfter answer (passes + 1 + j) input = String.ofList
        ((step answer)^[j] front ++ (escaped name ++ (step answer)^[j] back)) ∧
      Inert ((step answer)^[j] front) name ((step answer)^[j] back)) ↔
    Shut name ∧ ∀ j ≤ later, Closed ((step answer)^[j] front) := by
  intro front back
  have hname : '}' ∉ name := by
    have := proper_tokens (textAfter answer passes input).toList
    rw [h] at this
    exact this (.reference name) (by simp)
  constructor
  · intro hall
    have hinert := fun j hj => (inert_iff hname).mp (hall j hj).2
    exact ⟨(hinert 0 (Nat.zero_le _)).2, fun j hj => (hinert j hj).1⟩
  · rintro ⟨hshut, hclosed⟩ j hj
    refine ⟨?_, (inert_iff hname).mpr ⟨hclosed j hj, hshut⟩⟩
    have hkept := iterate_step_escaped hname hshut
      (fun i hi => hclosed i (Nat.le_trans (Nat.le_of_lt hi) hj)) back
    rw [← hkept, ← step_of_declined h hdeclined, textAfter_eq_iterate, textAfter_eq_iterate,
      String.toList_ofList, ← Function.iterate_succ_apply, ← Function.iterate_add_apply]
    congr 2
    omega

end

/-- What an expansion has settled on is settled on again, and what is escaped is
left alone by later passes, where nothing stands open in the names that are
escaped and what is before them is and stays closed, and nowhere else. -/
theorem escaped_kept_iff (answer : String → Option String) (maxPasses : Nat) (input : String) :
    (let e := expand (Lookup.pure answer) maxPasses input ()
     e.stop = .settled → ∀ bound,
       let again := expand (Lookup.pure answer) bound e.text ()
       again.stop = .settled ∧ again.text = e.text ↔
         ∀ n ∈ names (tokens (textAfter answer e.passes input).toList).1, Shut n.toList) ∧
    ∀ passes row name row' tail,
      tokens (textAfter answer passes input).toList = (row ++ .reference name :: row', tail) →
      answer (String.ofList name) = none →
      let front := row.flatMap (put answer)
      let back := row'.flatMap (put answer) ++ tail.chars
      ∀ later,
        (∀ j ≤ later,
          textAfter answer (passes + 1 + j) input = String.ofList
            ((step answer)^[j] front ++ (escaped name ++ (step answer)^[j] back)) ∧
          Inert ((step answer)^[j] front) name ((step answer)^[j] back)) ↔
        Shut name ∧ ∀ j ≤ later, Closed ((step answer)^[j] front) := by
  refine ⟨?_, fun passes row name row' tail h hdeclined => inert_later_iff h hdeclined⟩
  intro e hstop bound again
  obtain ⟨htext, hlast⟩ : e.text = textAfter answer (e.passes + 1) input ∧
    Answered answer (textAfter answer e.passes input).toList = false := settled_of_expand hstop
  have hiff := settled_again_iff hlast bound
  rw [← textAfter_succ_last, ← htext] at hiff
  exact hiff

def letter (name : String) : Option String :=
  if name = "a" then some "A"
  else if name = "b" then some "B"
  else if name = "hash" then some "#"
  else none

theorem escaped_kept_letter :
    let e := expand (Lookup.pure letter) 64 "A #{n}" ()
    let again := expand (Lookup.pure letter) 0 e.text ()
    e.stop = .settled ∧ again.stop = .settled ∧ again.text = e.text ∧
      tokens (textAfter letter 0 "#{a} #{n}").toList =
        ([.reference ['a'], .plain ' '] ++ .reference ['n'] :: [], .empty) ∧
      letter (String.ofList ['n']) = none ∧
      ∀ j ≤ 1, Inert ((step letter)^[j] ['A', ' ']) ['n'] ((step letter)^[j] []) := by
  have hstop : (expand (Lookup.pure letter) 64 "A #{n}" ()).stop = .settled := by cbv
  have hpasses : (expand (Lookup.pure letter) 64 "A #{n}" ()).passes = 0 := by cbv
  have hnames : names (tokens (textAfter letter 0 "A #{n}").toList).1 = ["n"] := by cbv
  have htokens : tokens (textAfter letter 0 "#{a} #{n}").toList =
      ([.reference ['a'], .plain ' '] ++ .reference ['n'] :: [], .empty) := by cbv
  have hdeclined : letter (String.ofList ['n']) = none := by cbv
  have hshut : Shut ['n'] := by cbv
  have hclosed : ∀ j ≤ 1, Closed ((step letter)^[j] ['A', ' ']) := by
    intro j hj
    obtain rfl | rfl : j = 0 ∨ j = 1 := by omega
    · cbv
    · cbv
  have hsettled := ((escaped_kept_iff letter 64 "A #{n}").1 hstop 0).mpr (by
    rw [hpasses, hnames]
    simpa using hshut)
  have hkept := ((escaped_kept_iff letter 64 "#{a} #{n}").2 0 _ _ _ _ htokens hdeclined 1).mpr
    ⟨hshut, hclosed⟩
  exact ⟨hstop, hsettled.1, hsettled.2, htokens, hdeclined, fun j hj => (hkept j hj).2⟩

/-- An escaped reference is looked into by a later pass if its name is open, and
read with the `#` before it if there is one. -/
theorem escaped_not_kept :
    expand (Lookup.pure letter) 64 "#\x7bx#\x7bb\x7d" () = ⟨"##\x7bx#\x7bb\x7d", 0, .settled, ()⟩ ∧
      expand (Lookup.pure letter) 64 "##\x7bx#\x7bb\x7d" () = ⟨"##\x7bxB", 1, .settled, ()⟩ ∧
      textAfter letter 1 "#{a} #\x7bx#\x7bb\x7d" = "A ##\x7bx#\x7bb\x7d" ∧
      expand (Lookup.noting letter) 64 "#{a} #\x7bx#\x7bb\x7d" [] =
        ⟨"A ##\x7bxB", 2, .settled, ["b", "x#\x7bb", "a"]⟩ ∧
      textAfter letter 1 "#{hash}#{n}" = "###{n}" ∧
      expand (Lookup.noting letter) 64 "#{hash}#{n}" [] =
        ⟨"####{n}", 1, .settled, ["n", "n", "hash"]⟩ := by
  refine ⟨?_, ?_, ?_, ?_, ?_, ?_⟩ <;> cbv

end Phrasebook.Reference
