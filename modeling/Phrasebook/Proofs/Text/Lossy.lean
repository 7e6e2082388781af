import Phrasebook.Proofs.Text.Decoding

/-
  What bytes that need not be UTF-8 are shown as.

  The reader goes byte by byte and keeps a sequence under way. What it shows can be
  said without it (`Shows`): the bytes of a character show that character, and a
  maximal invalid part shows one U+FFFD. Such a part is the start of a character
  that the next byte does not carry on, or a single byte that starts none.

  What is proved:
    1. `shows_iff` — any bytes show one text and no other, and that is what the
       reader finds.
    2. `lossy_append_char` — a character among bytes is shown as itself, whatever
       comes before it; what comes before and what comes after is shown as if it
       stood alone.
    3. `lossy_eq_append_cons_iff` — it is shown only where its own bytes are.
-/

namespace Phrasebook.Utf8

/-- Bytes that start a character and are not all of it. -/
def Underway (run : List UInt8) : Prop :=
  run ≠ [] ∧ ∃ c more, more ≠ [] ∧ run ++ more = String.utf8EncodeChar c

/-- A maximal invalid part `run` with `rest` behind it. -/
inductive Faulty : (run rest : List UInt8) → Prop
  | torn {run rest : List UInt8} (hrun : Underway run)
      (hnext : ∀ b ∈ rest.head?, ∀ c, ¬run ++ [b] <+: String.utf8EncodeChar c) : Faulty run rest
  | stray {b : UInt8} {rest : List UInt8} (hb : ∀ c, ¬[b] <+: String.utf8EncodeChar c) :
      Faulty [b] rest

/-- What bytes show: each character by its own bytes, and one U+FFFD by each
maximal invalid part. -/
inductive Shows : (bytes : List UInt8) → (text : List Char) → Prop
  | nil : Shows [] []
  | char (c : Char) {rest : List UInt8} {text : List Char} (h : Shows rest text) :
      Shows (String.utf8EncodeChar c ++ rest) (c :: text)
  | fault {run rest : List UInt8} {text : List Char} (hrun : Faulty run rest)
      (h : Shows rest text) : Shows (run ++ rest) ('\uFFFD' :: text)

/-! ## Sequences under way -/

section
variable {under : List UInt8} {q : Pending}

/-- There is a byte that carries a sequence on. -/
theorem Opens.low_le_high (h : Opens under q) : q.low ≤ q.high := by
  have hfull : (0x80 : UInt8) ≤ 0xBF := by decide
  cases h with
  | lead h =>
    rcases pending_of_lead h with ⟨-, -, rfl⟩ | ⟨-, -, rfl⟩ | ⟨-, -, rfl⟩
    · exact hfull
    · simp only
      split_ifs with hshort hsurrogate
      · exact absurd (hshort.symm.trans hsurrogate) (by decide)
      · decide
      · decide
      · decide
    · simp only
      split_ifs with hshort hlast
      · exact absurd (hshort.symm.trans hlast) (by decide)
      · decide
      · decide
      · decide
  | more => exact hfull

theorem Opens.underway (h : Opens under q) : Underway under := by
  refine ⟨?_, ?_⟩
  · cases h with
    | lead => exact List.cons_ne_nil _ _
    | more => exact List.concat_ne_nil _ _
  · -- on the number of bytes that follow the next one
    obtain ⟨missing, hmissing⟩ : ∃ n, q.missing = n := ⟨_, rfl⟩
    induction missing generalizing under q with
    | zero =>
      exact ⟨_, [q.low], List.cons_ne_nil _ _, h.encodes (UInt8.le_refl _) h.low_le_high hmissing⟩
    | succ missing ih =>
      obtain ⟨c, more, -, hc⟩ := ih (h.more (UInt8.le_refl _) h.low_le_high hmissing) rfl
      exact ⟨c, q.low :: more, List.cons_ne_nil _ _, by rw [← hc, List.append_assoc]; rfl⟩

theorem Opens.isPrefix (h : Opens under q) {b : UInt8} (hlow : q.low ≤ b) (hhigh : b ≤ q.high) :
    ∃ c, under ++ [b] <+: String.utf8EncodeChar c := by
  cases hmissing : q.missing with
  | zero => exact ⟨_, [], by rw [List.append_nil, h.encodes hlow hhigh hmissing]⟩
  | succ more =>
    obtain ⟨-, c, rest, -, hc⟩ := (h.more hlow hhigh hmissing).underway
    exact ⟨c, rest, hc⟩

end

theorem Progress.done_run (p : Progress) (bytes : List UInt8) :
    ∃ newer, (bytes.foldl Progress.step p).done = newer ++ p.done := by
  have hp : p = Progress.after ⟨[], p.pending⟩ p.done := rfl
  rw [hp, Progress.run_after]
  exact ⟨_, rfl⟩

theorem Underway.opens {run : List UInt8} (h : Underway run) :
    ∃ q, run.foldl Progress.step {} = ⟨[], some q⟩ ∧ Opens run q := by
  obtain ⟨hne, c, more, hmore, hc⟩ := h
  have hstart : Progress.Covers {} [] := ⟨[], [], rfl, ⟨[], rfl, .nil⟩, rfl⟩
  obtain ⟨before, under, hrun, hbefore, hunder⟩ := Progress.covers_run hstart run
  obtain ⟨newer, hnewer⟩ := Progress.done_run (run.foldl Progress.step {}) more
  generalize hp : run.foldl Progress.step {} = p at *
  have hread : more.foldl Progress.step p = ⟨[.char c], none⟩ := by
    rw [← hp, ← List.foldl_append, hc]
    exact read_encodeChar c []
  rw [hread] at hnewer
  -- with bytes missing, the character is not among the pieces
  have hdone : p.done = [] := by
    cases newer with
    | nil =>
      have hchar : p.done = [.char c] := hnewer.symm
      rw [hchar] at hbefore
      obtain ⟨runs, hruns, hspells⟩ := hbefore
      cases hspells with
      | cons hspell hnil =>
        cases hnil
        have hlength := congrArg List.length hrun
        rw [← hruns, List.flatten_singleton, show _ = _ from hspell, ← hc, List.nil_append,
          List.length_append, List.length_append] at hlength
        have := List.length_pos_iff.mpr hmore
        omega
    | cons piece newer =>
      obtain ⟨-, hnil⟩ := List.cons.inj hnewer
      exact (List.append_eq_nil_iff.mp hnil.symm).2
  rw [hdone] at hbefore
  obtain ⟨runs, hruns, hspells⟩ := hbefore
  cases hspells
  rw [← hruns] at hrun
  obtain rfl : under = run := hrun
  cases hpending : p.pending with
  | none =>
    rw [hpending] at hunder
    exact absurd hunder hne
  | some q =>
    rw [hpending] at hunder
    exact ⟨q, by rw [← hdone, ← hpending], hunder⟩

/-! ## Faults -/

section
variable {run rest : List UInt8}

theorem lossy_torn (hrun : Underway run)
    (hnext : ∀ b ∈ rest.head?, ∀ c, ¬run ++ [b] <+: String.utf8EncodeChar c) :
    lossy (run ++ rest) = '\uFFFD' :: lossy rest := by
  obtain ⟨q, hread, hopens⟩ := hrun.opens
  cases rest with
  | nil =>
    rw [List.append_nil, lossy, pieces, hread]
    rfl
  | cons b rest =>
    have hout : ¬(q.low ≤ b ∧ b ≤ q.high) := by
      rintro ⟨hlow, hhigh⟩
      obtain ⟨c, hc⟩ := hopens.isPrefix hlow hhigh
      exact hnext b rfl c hc
    -- the byte is read once more, with the part before it broken off
    have hstep : (b :: rest).foldl Progress.step ⟨[], some q⟩ =
        (b :: rest).foldl Progress.step ⟨[.broken q.size], none⟩ := by
      rw [List.foldl_cons, List.foldl_cons, step_broken rfl hout, step_start rfl]
    have hafter : (⟨[.broken q.size], none⟩ : Progress) = Progress.after {} [.broken q.size] := rfl
    rw [lossy, pieces, List.foldl_append, hread, hstep, hafter, Progress.run_after,
      Progress.finish_after]
    rfl

theorem lossy_stray {b : UInt8} (hb : ∀ c, ¬[b] <+: String.utf8EncodeChar c) :
    lossy (b :: rest) = '\uFFFD' :: lossy rest := by
  have hlead : lead b = (some (.broken 1), none) := by
    rcases lead_cases b with ⟨hascii, -⟩ | hlead | ⟨q, hlead⟩
    · have hchar := encodeChar_one (toNat_ofNat_of_valid (n := b.toNat) (by omega)) hascii
      rw [UInt8.ofNat_toNat] at hchar
      exact absurd ⟨[], hchar.symm⟩ (hb _)
    · exact hlead
    · obtain ⟨-, c, more, -, hc⟩ := (Opens.lead hlead).underway
      exact absurd ⟨more, hc⟩ (hb c)
  have hread : [b].foldl Progress.step {} = ⟨[.broken 1], none⟩ := by
    rw [List.foldl_cons, List.foldl_nil, step_start rfl, Progress.begin, hlead]
  exact lossy_append_of_read hread rest

theorem Faulty.lossy_append (h : Faulty run rest) :
    lossy (run ++ rest) = '\uFFFD' :: lossy rest := by
  cases h with
  | torn hrun hnext => exact lossy_torn hrun hnext
  | stray hb => exact lossy_stray hb

theorem Faulty.ne_nil (h : Faulty run rest) : run ≠ [] := by
  cases h with
  | torn hrun => exact hrun.1
  | stray => exact List.cons_ne_nil _ _

end

/-! ## What is shown -/

theorem Shows.eq_lossy {bytes : List UInt8} {text : List Char} (h : Shows bytes text) :
    text = lossy bytes := by
  induction h with
  | nil => rfl
  | char c _ ih =>
    have hchar := lossy_encode_append [c]
    simp only [encode_cons, encode_nil, List.append_nil] at hchar
    rw [hchar, ih]
    rfl
  | fault hrun _ ih => rw [hrun.lossy_append, ih]

/-- The start of a character goes on to be one, or is a fault. -/
theorem exists_first {run : List UInt8} (h : Underway run) (rest : List UInt8) :
    (∃ c rest', run ++ rest = String.utf8EncodeChar c ++ rest') ∨
      ∃ run' rest', run ++ rest = run' ++ rest' ∧ Faulty run' rest' := by
  induction rest generalizing run with
  | nil => exact .inr ⟨run, [], rfl, .torn h (by simp)⟩
  | cons b rest ih =>
    by_cases hnext : ∃ c, run ++ [b] <+: String.utf8EncodeChar c
    · obtain ⟨c, more, hc⟩ := hnext
      rw [List.append_cons]
      by_cases hmore : more = []
      · rw [hmore, List.append_nil] at hc
        exact .inl ⟨c, rest, by rw [hc]⟩
      · exact ih ⟨List.concat_ne_nil _ _, c, more, hmore, hc⟩
    · refine .inr ⟨run, b :: rest, rfl, .torn h ?_⟩
      rintro b' hb' c hc
      cases hb'
      exact hnext ⟨c, hc⟩

/-- Bytes begin with a character or with a fault. -/
theorem begins_cases (b : UInt8) (bytes : List UInt8) :
    (∃ c rest, b :: bytes = String.utf8EncodeChar c ++ rest) ∨
      ∃ run rest, b :: bytes = run ++ rest ∧ Faulty run rest := by
  by_cases hb : ∃ c, [b] <+: String.utf8EncodeChar c
  · obtain ⟨c, more, hc⟩ := hb
    by_cases hmore : more = []
    · rw [hmore, List.append_nil] at hc
      exact .inl ⟨c, bytes, by rw [← hc]; rfl⟩
    · exact exists_first ⟨List.cons_ne_nil _ _, c, more, hmore, hc⟩ bytes
  · exact .inr ⟨[b], bytes, rfl, .stray fun c hc => hb ⟨c, hc⟩⟩

theorem exists_shows (bytes : List UInt8) : ∃ text, Shows bytes text := by
  induction hn : bytes.length using Nat.strongRecOn generalizing bytes with
  | ind n ih =>
    cases bytes with
    | nil => exact ⟨[], .nil⟩
    | cons b bytes =>
      rcases begins_cases b bytes with ⟨c, rest, hsplit⟩ | ⟨run, rest, hsplit, hrun⟩
      · obtain ⟨first, more, hc⟩ := exists_encodeChar c
        have hlength : rest.length < n := by
          rw [← hn, hsplit, hc, List.length_append, List.length_cons]
          omega
        obtain ⟨text, htext⟩ := ih _ hlength rest rfl
        exact ⟨c :: text, hsplit ▸ .char c htext⟩
      · have hlength : rest.length < n := by
          have := List.length_pos_iff.mpr hrun.ne_nil
          rw [← hn, hsplit, List.length_append]
          omega
        obtain ⟨text, htext⟩ := ih _ hlength rest rfl
        exact ⟨'\uFFFD' :: text, hsplit ▸ .fault hrun htext⟩

/-- Any bytes show one text and no other, and that is what the reader finds. -/
theorem shows_iff {bytes : List UInt8} {text : List Char} :
    Shows bytes text ↔ text = lossy bytes := by
  constructor
  · exact Shows.eq_lossy
  · rintro rfl
    obtain ⟨text, htext⟩ := exists_shows bytes
    rwa [← htext.eq_lossy]

theorem shows_lossy (bytes : List UInt8) : Shows bytes (lossy bytes) := shows_iff.mpr rfl

theorem lossy_eq_nil_iff {bytes : List UInt8} : lossy bytes = [] ↔ bytes = [] := by
  constructor
  · intro h
    have hshows := shows_lossy bytes
    rw [h] at hshows
    cases hshows
    rfl
  · rintro rfl
    rfl

/-! ## Characters among other bytes -/

theorem continues_byte (n : Nat) : Continues (UInt8.ofNat (n % 64 + 0x80)) := by
  rw [Continues, toNat_continuation]
  omega

theorem not_continues_byte {n : Nat} (h : n < 256) (hout : n < 0x80 ∨ 0xC0 ≤ n) :
    ¬Continues (UInt8.ofNat n) := by
  rw [Continues, toNat_byte h]
  omega

/-- A character begins with a byte that continues no sequence, and goes on with bytes
that do. -/
theorem exists_encodeChar_continues (c : Char) :
    ∃ first more, String.utf8EncodeChar c = first :: more ∧ ¬Continues first ∧
      ∀ b ∈ more, Continues b := by
  obtain ⟨n, hn⟩ : ∃ n, c.val.toNat = n := ⟨_, rfl⟩
  have hvalid := code_valid c
  rw [hn] at hvalid
  by_cases h1 : n < 0x80
  · exact ⟨_, _, encodeChar_one hn h1, not_continues_byte (by omega) (by omega), by simp⟩
  by_cases h2 : n < 0x800
  · refine ⟨_, _, encodeChar_two hn (by omega) h2, not_continues_byte (by omega) (by omega), ?_⟩
    rw [List.forall_mem_singleton]
    exact continues_byte n
  by_cases h3 : n < 0x10000
  · refine ⟨_, _, encodeChar_three hn (by omega) h3, not_continues_byte (by omega) (by omega), ?_⟩
    rw [List.forall_mem_cons, List.forall_mem_singleton]
    exact ⟨continues_byte (n / 64), continues_byte n⟩
  · refine ⟨_, _, encodeChar_four hn (by omega) (by omega),
      not_continues_byte (by omega) (by omega), ?_⟩
    rw [List.forall_mem_cons, List.forall_mem_cons, List.forall_mem_singleton]
    exact ⟨continues_byte (n / 4096), continues_byte (n / 64), continues_byte n⟩

section
variable {run rest : List UInt8}

theorem Faulty.append_char (h : Faulty run rest) (c : Char) (after : List UInt8) :
    Faulty run (rest ++ (String.utf8EncodeChar c ++ after)) := by
  cases h with
  | stray hb => exact .stray hb
  | torn hrun hnext =>
    refine .torn hrun ?_
    cases rest with
    | cons b rest => exact hnext
    | nil =>
      -- the character's first byte continues nothing
      intro b hb d hd
      obtain ⟨first, more, hc, hfirst, -⟩ := exists_encodeChar_continues c
      obtain ⟨first', more', hd', -, hmore'⟩ := exists_encodeChar_continues d
      rw [List.nil_append, hc, List.cons_append, List.head?_cons] at hb
      cases hb
      obtain ⟨r, run', rfl⟩ := List.exists_cons_of_ne_nil hrun.1
      rw [hd', List.cons_append, List.cons_prefix_cons] at hd
      exact hfirst (hmore' _ (hd.2.subset (List.mem_append_right _ (.head _))))

theorem Faulty.of_append {more : List UInt8} (h : Faulty run (rest ++ more)) : Faulty run rest := by
  cases h with
  | stray hb => exact .stray hb
  | torn hrun hnext =>
    refine .torn hrun ?_
    cases rest with
    | cons b rest => exact hnext
    | nil => simp

end

section
variable {bytes : List UInt8} {text text' : List Char} {c : Char}

theorem Shows.append_char {after : List UInt8} (h : Shows bytes text) (h' : Shows after text') :
    Shows (bytes ++ (String.utf8EncodeChar c ++ after)) (text ++ c :: text') := by
  induction h with
  | nil => exact .char c h'
  | char d _ ih =>
    rw [List.append_assoc]
    exact .char d ih
  | fault hrun _ ih =>
    rw [List.append_assoc]
    exact .fault (hrun.append_char c after) ih

/-- A character other than U+FFFD is shown by its own bytes. -/
theorem Shows.split (hc : c ≠ '\uFFFD') (h : Shows bytes (text ++ c :: text')) :
    ∃ before after, bytes = before ++ (String.utf8EncodeChar c ++ after) ∧ Shows before text ∧
      Shows after text' := by
  induction text generalizing bytes with
  | nil =>
    cases h with
    | char _ h => exact ⟨[], _, rfl, .nil, h⟩
    | fault => exact absurd rfl hc
  | cons d text ih =>
    cases h with
    | char _ h =>
      obtain ⟨before, after, rfl, hbefore, hafter⟩ := ih h
      exact ⟨_, after, (List.append_assoc ..).symm, .char d hbefore, hafter⟩
    | fault hrun h =>
      obtain ⟨before, after, rfl, hbefore, hafter⟩ := ih h
      exact ⟨_, after, (List.append_assoc ..).symm, .fault hrun.of_append hbefore, hafter⟩

/-- A character among bytes is shown as itself, whatever comes before it, and what
comes before and after is shown as if it stood alone. -/
theorem lossy_append_char (before : List UInt8) (c : Char) (after : List UInt8) :
    lossy (before ++ (String.utf8EncodeChar c ++ after)) = lossy before ++ c :: lossy after :=
  ((shows_lossy before).append_char (shows_lossy after)).eq_lossy.symm

theorem lossy_eq_append_cons_iff (hc : c ≠ '\uFFFD') :
    lossy bytes = text ++ c :: text' ↔
      ∃ before after, bytes = before ++ (String.utf8EncodeChar c ++ after) ∧
        lossy before = text ∧ lossy after = text' := by
  constructor
  · intro h
    obtain ⟨before, after, hsplit, hbefore, hafter⟩ := Shows.split hc (shows_iff.mpr h.symm)
    exact ⟨before, after, hsplit, hbefore.eq_lossy.symm, hafter.eq_lossy.symm⟩
  · rintro ⟨before, after, rfl, rfl, rfl⟩
    exact lossy_append_char before c after

end

end Phrasebook.Utf8
