import Phrasebook.Proofs.Text.Utf8

/-
  Reading bytes as UTF-8, and what is read off them.

  What is proved:
    1. `lossy_encode_append` — the bytes of a text are read as that text, and what
       follows them as if it stood alone.
    2. `pieces_spelled` — any bytes fall into runs, one for each piece: a
       character stands for its own bytes, and a faulty piece for as many as it
       says.
    3. `mem_of_mem_lossy` — so an ASCII character is shown only where its byte is.
-/

namespace Phrasebook.Utf8

/-! ## The first byte of a sequence -/

/-- A byte at the start is an ASCII character, or no sequence begins with it, or
one does. -/
theorem lead_cases (b : UInt8) :
    (b.toNat < 0x80 ∧ lead b = (some (.char (Char.ofNat b.toNat)), none)) ∨
      lead b = (some (.broken 1), none) ∨ ∃ q, lead b = (none, some q) := by
  simp only [lead, UInt8.lt_iff_toNat_lt, UInt8.reduceToNat]
  split
  · next h => exact .inl ⟨h, rfl⟩
  · right
    split
    · exact .inl rfl
    · split
      · exact .inr ⟨_, rfl⟩
      · split
        · exact .inr ⟨_, rfl⟩
        · split
          · exact .inr ⟨_, rfl⟩
          · exact .inl rfl

/-- The bytes that begin a sequence of two, three or four, and what they ask of
the next byte. -/
theorem pending_of_lead {b : UInt8} {q : Pending} (h : lead b = (none, some q)) :
    0xC2 ≤ b.toNat ∧ b.toNat < 0xE0 ∧ q = ⟨1, b.toNat - 0xC0, 0x80, 0xBF, 0⟩ ∨
      0xE0 ≤ b.toNat ∧ b.toNat < 0xF0 ∧
        q = ⟨1, b.toNat - 0xE0, if b = 0xE0 then 0xA0 else 0x80,
          if b = 0xED then 0x9F else 0xBF, 1⟩ ∨
      0xF0 ≤ b.toNat ∧ b.toNat < 0xF5 ∧
        q = ⟨1, b.toNat - 0xF0, if b = 0xF0 then 0x90 else 0x80,
          if b = 0xF4 then 0x8F else 0xBF, 2⟩ := by
  simp only [lead, UInt8.lt_iff_toNat_lt, UInt8.reduceToNat] at h
  split at h
  · cases h
  · split at h
    · cases h
    · split at h
      · next hlow hhigh =>
        cases h
        exact .inl ⟨by omega, hhigh, rfl⟩
      · split at h
        · next hlow hhigh =>
          cases h
          exact .inr (.inl ⟨by omega, hhigh, rfl⟩)
        · split at h
          · next hlow hhigh =>
            cases h
            exact .inr (.inr ⟨by omega, hhigh, rfl⟩)
          · cases h

section
variable {b : UInt8}

theorem lead_ascii (h : b.toNat < 0x80) : lead b = (some (.char (Char.ofNat b.toNat)), none) := by
  simp only [lead, UInt8.lt_iff_toNat_lt, UInt8.reduceToNat]
  rw [if_pos h]

theorem lead_two (h : 0xC2 ≤ b.toNat) (h' : b.toNat < 0xE0) :
    lead b = (none, some ⟨1, b.toNat - 0xC0, 0x80, 0xBF, 0⟩) := by
  simp only [lead, UInt8.lt_iff_toNat_lt, UInt8.reduceToNat]
  rw [if_neg (by omega), if_neg (by omega), if_pos (by omega)]

theorem lead_three (h : 0xE0 ≤ b.toNat) (h' : b.toNat < 0xF0) :
    lead b = (none, some ⟨1, b.toNat - 0xE0, if b = 0xE0 then 0xA0 else 0x80,
      if b = 0xED then 0x9F else 0xBF, 1⟩) := by
  simp only [lead, UInt8.lt_iff_toNat_lt, UInt8.reduceToNat]
  rw [if_neg (by omega), if_neg (by omega), if_neg (by omega), if_pos (by omega)]

theorem lead_four (h : 0xF0 ≤ b.toNat) (h' : b.toNat < 0xF5) :
    lead b = (none, some ⟨1, b.toNat - 0xF0, if b = 0xF0 then 0x90 else 0x80,
      if b = 0xF4 then 0x8F else 0xBF, 2⟩) := by
  simp only [lead, UInt8.lt_iff_toNat_lt, UInt8.reduceToNat]
  rw [if_neg (by omega), if_neg (by omega), if_neg (by omega), if_neg (by omega),
    if_pos (by omega)]

end

/-! ## One byte further -/

section
variable {p : Progress} {q : Pending} {b : UInt8} (hp : p.pending = some q)
include hp

theorem step_last (hlow : q.low ≤ b) (hhigh : b ≤ q.high) (hmissing : q.missing = 0) :
    p.step b = ⟨.char (Char.ofNat (q.value * 64 + (b.toNat - 0x80))) :: p.done, none⟩ := by
  simp only [Progress.step, hp, if_pos (And.intro hlow hhigh), hmissing]

theorem step_more (more : Nat) (hlow : q.low ≤ b) (hhigh : b ≤ q.high)
    (hmissing : q.missing = more + 1) :
    p.step b =
      ⟨p.done, some ⟨q.size + 1, q.value * 64 + (b.toNat - 0x80), 0x80, 0xBF, more⟩⟩ := by
  simp only [Progress.step, hp, if_pos (And.intro hlow hhigh), hmissing]

theorem step_broken (h : ¬(q.low ≤ b ∧ b ≤ q.high)) :
    p.step b = Progress.begin ⟨.broken q.size :: p.done, none⟩ b := by
  simp only [Progress.step, hp, if_neg h]

end

theorem step_start {p : Progress} (hp : p.pending = none) (b : UInt8) : p.step b = p.begin b := by
  simp only [Progress.step, hp]

/-! ## The bytes of a character -/

/-- The code of a character is no surrogate, and below 0x110000. -/
theorem code_valid (c : Char) :
    c.val.toNat < 0xD800 ∨ 0xDFFF < c.val.toNat ∧ c.val.toNat < 0x110000 := c.valid

section
variable {c : Char} {n : Nat} (hn : c.val.toNat = n)
include hn

theorem encodeChar_one (h : n < 0x80) : String.utf8EncodeChar c = [UInt8.ofNat n] := by
  simp only [String.utf8EncodeChar, hn]
  rw [if_pos (by omega)]

theorem encodeChar_two (h : 0x80 ≤ n) (h' : n < 0x800) :
    String.utf8EncodeChar c = [UInt8.ofNat (n / 64 + 0xC0), UInt8.ofNat (n % 64 + 0x80)] := by
  simp only [String.utf8EncodeChar, hn]
  rw [if_neg (by omega), if_pos (by omega)]
  congr 3
  omega

theorem encodeChar_three (h : 0x800 ≤ n) (h' : n < 0x10000) :
    String.utf8EncodeChar c =
      [UInt8.ofNat (n / 4096 + 0xE0), UInt8.ofNat (n / 64 % 64 + 0x80),
        UInt8.ofNat (n % 64 + 0x80)] := by
  simp only [String.utf8EncodeChar, hn]
  rw [if_neg (by omega), if_neg (by omega), if_pos (by omega)]
  congr 3
  omega

theorem encodeChar_four (h : 0x10000 ≤ n) (h' : n < 0x110000) :
    String.utf8EncodeChar c =
      [UInt8.ofNat (n / 262144 + 0xF0), UInt8.ofNat (n / 4096 % 64 + 0x80),
        UInt8.ofNat (n / 64 % 64 + 0x80), UInt8.ofNat (n % 64 + 0x80)] := by
  simp only [String.utf8EncodeChar, hn]
  rw [if_neg (by omega), if_neg (by omega), if_neg (by omega)]
  congr 3
  omega

end

theorem toNat_byte {n : Nat} (h : n < 256) : (UInt8.ofNat n).toNat = n := by
  rw [UInt8.toNat_ofNat']
  exact Nat.mod_eq_of_lt h

theorem toNat_continuation (n : Nat) : (UInt8.ofNat (n % 64 + 0x80)).toNat = n % 64 + 0x80 :=
  toNat_byte (by omega)

theorem continuation_bounds (n : Nat) :
    0x80 ≤ UInt8.ofNat (n % 64 + 0x80) ∧ UInt8.ofNat (n % 64 + 0x80) ≤ 0xBF := by
  simp only [UInt8.le_iff_toNat_le, toNat_continuation, UInt8.reduceToNat]
  omega

section
variable {n : Nat} (done : List Piece)

theorem read_one (h : n < 0x80) :
    [UInt8.ofNat n].foldl Progress.step ⟨done, none⟩ = ⟨.char (Char.ofNat n) :: done, none⟩ := by
  have hb := toNat_byte (n := n) (by omega)
  rw [List.foldl_cons, List.foldl_nil, step_start rfl, Progress.begin, lead_ascii (by omega), hb]

theorem read_two (h : 0x80 ≤ n) (h' : n < 0x800) :
    [UInt8.ofNat (n / 64 + 0xC0), UInt8.ofNat (n % 64 + 0x80)].foldl Progress.step ⟨done, none⟩ =
      ⟨.char (Char.ofNat n) :: done, none⟩ := by
  have hb := toNat_byte (n := n / 64 + 0xC0) (by omega)
  have hvalue : (n / 64 + 0xC0 - 0xC0) * 64 + (n % 64 + 0x80 - 0x80) = n := by omega
  obtain ⟨hlow, hhigh⟩ := continuation_bounds n
  rw [List.foldl_cons, step_start rfl, Progress.begin, lead_two (by omega) (by omega), hb,
    List.foldl_cons, List.foldl_nil, step_last rfl hlow hhigh rfl]
  simp only [toNat_continuation, hvalue]

theorem read_three (h : 0x800 ≤ n) (h' : n < 0x10000) (hvalid : n < 0xD800 ∨ 0xDFFF < n) :
    [UInt8.ofNat (n / 4096 + 0xE0), UInt8.ofNat (n / 64 % 64 + 0x80),
        UInt8.ofNat (n % 64 + 0x80)].foldl Progress.step ⟨done, none⟩ =
      ⟨.char (Char.ofNat n) :: done, none⟩ := by
  have hb := toNat_byte (n := n / 4096 + 0xE0) (by omega)
  have hvalue : ((n / 4096 + 0xE0 - 0xE0) * 64 + (n / 64 % 64 + 0x80 - 0x80)) * 64 +
      (n % 64 + 0x80 - 0x80) = n := by omega
  obtain ⟨hlow, hhigh⟩ := continuation_bounds n
  rw [List.foldl_cons, step_start rfl, Progress.begin, lead_three (by omega) (by omega), hb,
    List.foldl_cons, step_more rfl 0 ?low ?high rfl, List.foldl_cons, List.foldl_nil,
    step_last rfl hlow hhigh rfl]
  · simp only [toNat_continuation, hvalue]
  -- the second byte leaves out shorter forms and surrogates
  case low =>
    simp only [UInt8.le_iff_toNat_le, apply_ite UInt8.toNat, ← UInt8.toNat_inj, hb,
      toNat_continuation, UInt8.reduceToNat]
    split <;> omega
  case high =>
    simp only [UInt8.le_iff_toNat_le, apply_ite UInt8.toNat, ← UInt8.toNat_inj, hb,
      toNat_continuation, UInt8.reduceToNat]
    split <;> omega

theorem read_four (h : 0x10000 ≤ n) (h' : n < 0x110000) :
    [UInt8.ofNat (n / 262144 + 0xF0), UInt8.ofNat (n / 4096 % 64 + 0x80),
        UInt8.ofNat (n / 64 % 64 + 0x80), UInt8.ofNat (n % 64 + 0x80)].foldl
        Progress.step ⟨done, none⟩ =
      ⟨.char (Char.ofNat n) :: done, none⟩ := by
  have hb := toNat_byte (n := n / 262144 + 0xF0) (by omega)
  have hvalue : (((n / 262144 + 0xF0 - 0xF0) * 64 + (n / 4096 % 64 + 0x80 - 0x80)) * 64 +
      (n / 64 % 64 + 0x80 - 0x80)) * 64 + (n % 64 + 0x80 - 0x80) = n := by omega
  obtain ⟨hlow, hhigh⟩ := continuation_bounds (n / 64)
  obtain ⟨hlow', hhigh'⟩ := continuation_bounds n
  rw [List.foldl_cons, step_start rfl, Progress.begin, lead_four (by omega) (by omega), hb,
    List.foldl_cons, step_more rfl 1 ?low ?high rfl, List.foldl_cons,
    step_more rfl 0 hlow hhigh rfl, List.foldl_cons, List.foldl_nil,
    step_last rfl hlow' hhigh' rfl]
  · simp only [toNat_continuation, hvalue]
  -- the second byte leaves out shorter forms and codes past the last one
  case low =>
    simp only [UInt8.le_iff_toNat_le, apply_ite UInt8.toNat, ← UInt8.toNat_inj, hb,
      toNat_continuation, UInt8.reduceToNat]
    split <;> omega
  case high =>
    simp only [UInt8.le_iff_toNat_le, apply_ite UInt8.toNat, ← UInt8.toNat_inj, hb,
      toNat_continuation, UInt8.reduceToNat]
    split <;> omega

end

theorem read_encodeChar (c : Char) (done : List Piece) :
    (String.utf8EncodeChar c).foldl Progress.step ⟨done, none⟩ = ⟨.char c :: done, none⟩ := by
  obtain ⟨n, hn⟩ : ∃ n, c.val.toNat = n := ⟨_, rfl⟩
  have hc : Char.ofNat n = c := by
    rw [← hn]
    exact Char.ofNat_toNat c
  have hvalid := code_valid c
  rw [hn] at hvalid
  by_cases h1 : n < 0x80
  · rw [encodeChar_one hn h1, read_one done h1, hc]
  · by_cases h2 : n < 0x800
    · rw [encodeChar_two hn (by omega) h2, read_two done (by omega) h2, hc]
    · by_cases h3 : n < 0x10000
      · rw [encodeChar_three hn (by omega) h3, read_three done (by omega) h3 (by omega), hc]
      · rw [encodeChar_four hn (by omega) (by omega), read_four done (by omega) (by omega), hc]

theorem read_encode (text : List Char) (done : List Piece) :
    (encode text).foldl Progress.step ⟨done, none⟩ =
      ⟨(text.map .char).reverse ++ done, none⟩ := by
  induction text generalizing done with
  | nil => rfl
  | cons c text ih =>
    rw [encode_cons, List.foldl_append, read_encodeChar, ih, List.map_cons, List.reverse_cons,
      List.append_assoc]
    rfl

/-! ## Bytes after a text -/

/-- The progress with more pieces read before all of it. -/
def Progress.after (p : Progress) (older : List Piece) : Progress :=
  ⟨p.done ++ older, p.pending⟩

section
variable (p : Progress) (older : List Piece)

theorem Progress.begin_after (b : UInt8) : (p.after older).begin b = (p.begin b).after older := by
  simp only [begin, after]
  split <;> rfl

theorem Progress.step_after (b : UInt8) : (p.after older).step b = (p.step b).after older := by
  cases hp : p.pending with
  | none =>
    rw [step_start hp, step_start (p := p.after older) hp]
    exact p.begin_after older b
  | some q =>
    by_cases hb : q.low ≤ b ∧ b ≤ q.high
    · cases hmissing : q.missing with
      | zero =>
        rw [step_last hp hb.1 hb.2 hmissing, step_last (p := p.after older) hp hb.1 hb.2 hmissing]
        rfl
      | succ more =>
        rw [step_more hp more hb.1 hb.2 hmissing,
          step_more (p := p.after older) hp more hb.1 hb.2 hmissing]
        rfl
    · rw [step_broken hp hb, step_broken (p := p.after older) hp hb]
      exact begin_after ⟨.broken q.size :: p.done, none⟩ older b

theorem Progress.run_after (bytes : List UInt8) :
    bytes.foldl Progress.step (p.after older) = (bytes.foldl Progress.step p).after older := by
  induction bytes generalizing p with
  | nil => rfl
  | cons b bytes ih => rw [List.foldl_cons, List.foldl_cons, step_after, ih]

theorem Progress.finish_after : (p.after older).finish = older.reverse ++ p.finish := by
  simp only [finish, after]
  split <;> simp

end

/-- Bytes that are read without one left over do not change how the rest is read. -/
theorem lossy_append_of_read {run : List UInt8} {done : List Piece}
    (h : run.foldl Progress.step {} = ⟨done, none⟩) (rest : List UInt8) :
    lossy (run ++ rest) = done.reverse.map Piece.shown ++ lossy rest := by
  have hstart : (⟨done, none⟩ : Progress) = Progress.after {} done := rfl
  rw [lossy, pieces, List.foldl_append, h, hstart, Progress.run_after, Progress.finish_after,
    List.map_append]
  rfl

/-- The bytes of a text at the start do not change how the rest is read. -/
theorem lossy_encode_append (text : List Char) (rest : List UInt8) :
    lossy (encode text ++ rest) = text ++ lossy rest := by
  have hshown : text.map (Piece.shown ∘ Piece.char) = text := List.map_id text
  rw [lossy_append_of_read (read_encode text []), List.append_nil, List.reverse_reverse,
    List.map_map, hshown]

theorem lossy_encode (text : List Char) : lossy (encode text) = text := by
  have h := lossy_encode_append text []
  rw [List.append_nil] at h
  rw [h]
  exact List.append_nil text

theorem firstFault_chars (index : Nat) (text : List Char) :
    firstFault index (text.map .char) = none := by
  induction text generalizing index with
  | nil => rfl
  | cons c text ih => exact ih (index + c.utf8Size)

theorem decode_encode (text : List Char) : decode (encode text) = .ok text := by
  have hpieces : pieces (encode text) = text.map .char := by
    rw [pieces, read_encode, List.append_nil, Progress.finish, List.reverse_reverse]
  rw [decode, hpieces, firstFault_chars, lossy_encode]

/-! ## Complete sequences -/

theorem toNat_ofNat_of_valid {n : Nat} (h : n < 0xD800 ∨ 0xDFFF < n ∧ n < 0x110000) :
    (Char.ofNat n).val.toNat = n := by
  have hn := Char.toNat_ofNat n
  rwa [if_pos h] at hn

theorem eq_ofNat {b : UInt8} {n : Nat} (h : b.toNat = n) : b = UInt8.ofNat n := by
  rw [← h]
  exact UInt8.ofNat_toNat.symm

def Continues (b : UInt8) : Prop := 0x80 ≤ b.toNat ∧ b.toNat ≤ 0xBF

section
variable {b0 b1 b2 b3 : UInt8}

theorem encodes_two (h : 0xC2 ≤ b0.toNat ∧ b0.toNat < 0xE0) (h1 : Continues b1) :
    [b0, b1] =
      String.utf8EncodeChar (Char.ofNat ((b0.toNat - 0xC0) * 64 + (b1.toNat - 0x80))) := by
  obtain ⟨hlow, hhigh⟩ := h1
  obtain ⟨n, hn⟩ : ∃ n, (b0.toNat - 0xC0) * 64 + (b1.toNat - 0x80) = n := ⟨_, rfl⟩
  have hb0 : b0 = UInt8.ofNat (n / 64 + 0xC0) := eq_ofNat (by omega)
  have hb1 : b1 = UInt8.ofNat (n % 64 + 0x80) := eq_ofNat (by omega)
  rw [hn, encodeChar_two (toNat_ofNat_of_valid (by omega)) (by omega) (by omega), ← hb0, ← hb1]

theorem encodes_three (h : 0xE0 ≤ b0.toNat ∧ b0.toNat < 0xF0) (h1 : Continues b1)
    (h2 : Continues b2) (hshort : b0.toNat = 0xE0 → 0xA0 ≤ b1.toNat)
    (hsurrogate : b0.toNat = 0xED → b1.toNat ≤ 0x9F) :
    [b0, b1, b2] =
      String.utf8EncodeChar (Char.ofNat
        (((b0.toNat - 0xE0) * 64 + (b1.toNat - 0x80)) * 64 + (b2.toNat - 0x80))) := by
  obtain ⟨hlow, hhigh⟩ := h1
  obtain ⟨hlow', hhigh'⟩ := h2
  obtain ⟨n, hn⟩ : ∃ n,
    ((b0.toNat - 0xE0) * 64 + (b1.toNat - 0x80)) * 64 + (b2.toNat - 0x80) = n := ⟨_, rfl⟩
  have hb0 : b0 = UInt8.ofNat (n / 4096 + 0xE0) := eq_ofNat (by omega)
  have hb1 : b1 = UInt8.ofNat (n / 64 % 64 + 0x80) := eq_ofNat (by omega)
  have hb2 : b2 = UInt8.ofNat (n % 64 + 0x80) := eq_ofNat (by omega)
  rw [hn, encodeChar_three (toNat_ofNat_of_valid (by omega)) (by omega) (by omega), ← hb0, ← hb1,
    ← hb2]

theorem encodes_four (h : 0xF0 ≤ b0.toNat ∧ b0.toNat < 0xF5) (h1 : Continues b1)
    (h2 : Continues b2) (h3 : Continues b3) (hshort : b0.toNat = 0xF0 → 0x90 ≤ b1.toNat)
    (hlast : b0.toNat = 0xF4 → b1.toNat ≤ 0x8F) :
    [b0, b1, b2, b3] =
      String.utf8EncodeChar (Char.ofNat
        ((((b0.toNat - 0xF0) * 64 + (b1.toNat - 0x80)) * 64 + (b2.toNat - 0x80)) * 64 +
          (b3.toNat - 0x80))) := by
  obtain ⟨hlow, hhigh⟩ := h1
  obtain ⟨hlow', hhigh'⟩ := h2
  obtain ⟨hlow'', hhigh''⟩ := h3
  obtain ⟨n, hn⟩ : ∃ n,
    (((b0.toNat - 0xF0) * 64 + (b1.toNat - 0x80)) * 64 + (b2.toNat - 0x80)) * 64 +
      (b3.toNat - 0x80) = n := ⟨_, rfl⟩
  have hb0 : b0 = UInt8.ofNat (n / 262144 + 0xF0) := eq_ofNat (by omega)
  have hb1 : b1 = UInt8.ofNat (n / 4096 % 64 + 0x80) := eq_ofNat (by omega)
  have hb2 : b2 = UInt8.ofNat (n / 64 % 64 + 0x80) := eq_ofNat (by omega)
  have hb3 : b3 = UInt8.ofNat (n % 64 + 0x80) := eq_ofNat (by omega)
  rw [hn, encodeChar_four (toNat_ofNat_of_valid (by omega)) (by omega) (by omega), ← hb0, ← hb1,
    ← hb2, ← hb3]

end

/-! ## What is read off bytes -/

/-- The bytes `under` begin a sequence and have it under way as `q`. -/
inductive Opens : (under : List UInt8) → (q : Pending) → Prop
  | lead {b : UInt8} {q : Pending} (h : lead b = (none, some q)) : Opens [b] q
  | more {under : List UInt8} {q : Pending} {b : UInt8} {more : Nat} (h : Opens under q)
      (hlow : q.low ≤ b) (hhigh : b ≤ q.high) (hmissing : q.missing = more + 1) :
      Opens (under ++ [b]) ⟨q.size + 1, q.value * 64 + (b.toNat - 0x80), 0x80, 0xBF, more⟩

section
variable {under : List UInt8} {q : Pending}

theorem Opens.length_eq (h : Opens under q) : under.length = q.size := by
  induction h with
  | lead h =>
    rcases pending_of_lead h with ⟨-, -, rfl⟩ | ⟨-, -, rfl⟩ | ⟨-, -, rfl⟩ <;> rfl
  | more _ _ _ _ ih => rw [List.length_append, ih, List.length_singleton]

theorem Opens.continues (h : Opens under q) {b : UInt8} (hlow : q.low ≤ b) (hhigh : b ≤ q.high) :
    Continues b := by
  rw [UInt8.le_iff_toNat_le] at hlow hhigh
  cases h with
  | lead h =>
    rcases pending_of_lead h with ⟨-, -, rfl⟩ | ⟨-, -, rfl⟩ | ⟨-, -, rfl⟩ <;>
      simp only [apply_ite UInt8.toNat, UInt8.reduceToNat] at hlow hhigh
    · exact ⟨hlow, hhigh⟩
    · constructor
      · split at hlow <;> omega
      · split at hhigh <;> omega
    · constructor
      · split at hlow <;> omega
      · split at hhigh <;> omega
  | more => exact ⟨hlow, hhigh⟩

theorem Opens.missing_le (h : Opens under q) : q.missing ≤ 2 := by
  induction h with
  | lead h =>
    rcases pending_of_lead h with ⟨-, -, rfl⟩ | ⟨-, -, rfl⟩ | ⟨-, -, rfl⟩
    · show 0 ≤ 2
      omega
    · show 1 ≤ 2
      omega
    · show 2 ≤ 2
      omega
  | @more _ _ _ more _ _ _ hmissing ih =>
    show more ≤ 2
    omega

/-- The bytes of a sequence whose last byte has come are a character's. -/
theorem Opens.encodes (h : Opens under q) {b : UInt8} (hlow : q.low ≤ b) (hhigh : b ≤ q.high)
    (hmissing : q.missing = 0) :
    under ++ [b] =
      String.utf8EncodeChar (Char.ofNat (q.value * 64 + (b.toNat - 0x80))) := by
  have hb := h.continues hlow hhigh
  -- by the number of bytes before the last
  cases h with
  | lead hlead =>
    rcases pending_of_lead hlead with ⟨h0, h0', rfl⟩ | ⟨-, -, rfl⟩ | ⟨-, -, rfl⟩
    · exact encodes_two ⟨h0, h0'⟩ hb
    · cases hmissing
    · cases hmissing
  | @more _ _ b2 _ hopens hlow2 hhigh2 hmissing2 =>
    have hb2 := hopens.continues hlow2 hhigh2
    cases hmissing
    cases hopens with
    | lead hlead =>
      rcases pending_of_lead hlead with ⟨-, -, rfl⟩ | ⟨h0, h0', rfl⟩ | ⟨-, -, rfl⟩
      · cases hmissing2
      · simp only [UInt8.le_iff_toNat_le, apply_ite UInt8.toNat, ← UInt8.toNat_inj,
          UInt8.reduceToNat] at hlow2 hhigh2
        refine encodes_three ⟨h0, h0'⟩ hb2 hb ?_ ?_
        · intro h
          rwa [if_pos h] at hlow2
        · intro h
          rwa [if_pos h] at hhigh2
      · cases hmissing2
    | @more _ _ b1 _ hopens hlow1 hhigh1 hmissing1 =>
      have hb1 := hopens.continues hlow1 hhigh1
      cases hmissing2
      cases hopens with
      | lead hlead =>
        rcases pending_of_lead hlead with ⟨-, -, rfl⟩ | ⟨-, -, rfl⟩ | ⟨h0, h0', rfl⟩
        · cases hmissing1
        · cases hmissing1
        · simp only [UInt8.le_iff_toNat_le, apply_ite UInt8.toNat, ← UInt8.toNat_inj,
            UInt8.reduceToNat] at hlow1 hhigh1
          refine encodes_four ⟨h0, h0'⟩ hb1 hb2 hb ?_ ?_
          · intro h
            rwa [if_pos h] at hlow1
          · intro h
            rwa [if_pos h] at hhigh1
      | more hopens _ _ hmissing =>
        -- no sequence is that long
        cases hmissing1
        have hle := hopens.missing_le
        rw [hmissing] at hle
        exact absurd hle (by decide)

end

/-- The run of bytes a piece stands for: a character's own bytes, and of a
faulty piece what is known is the length. -/
def Piece.Spells : Piece → (run : List UInt8) → Prop
  | .char c, run => run = String.utf8EncodeChar c
  | .broken n, run => run.length = n
  | .cut n, run => run.length = n

/-- The bytes fall into runs, one for each piece in order. -/
def Spelled (found : List Piece) (bytes : List UInt8) : Prop :=
  ∃ runs, runs.flatten = bytes ∧ List.Forall₂ Piece.Spells found runs

theorem Spelled.concat {found : List Piece} {bytes run : List UInt8} {piece : Piece}
    (h : Spelled found bytes) (hrun : piece.Spells run) :
    Spelled (found ++ [piece]) (bytes ++ run) := by
  obtain ⟨runs, hruns, hspells⟩ := h
  refine ⟨runs ++ [run], ?_, List.rel_append hspells (.cons hrun .nil)⟩
  rw [List.flatten_append, hruns, List.flatten_singleton]

/-- What has been read is spelled by the complete pieces, and the rest of it is
the sequence under way. -/
def Progress.Covers (p : Progress) (bytes : List UInt8) : Prop :=
  ∃ before under, before ++ under = bytes ∧ Spelled p.done.reverse before ∧
    match p.pending with
    | none => under = []
    | some q => Opens under q

section
variable {p : Progress} {bytes : List UInt8}

/-- A byte at the start of a sequence, with all the bytes before it spelled. -/
theorem Progress.covers_begin (h : Spelled p.done.reverse bytes) (b : UInt8) :
    (p.begin b).Covers (bytes ++ [b]) := by
  rcases lead_cases b with ⟨hb, hlead⟩ | hlead | ⟨q, hlead⟩
  · refine ⟨bytes ++ [b], [], List.append_nil _, ?_, ?_⟩
    · rw [Progress.begin, hlead, List.reverse_cons]
      apply h.concat
      show [b] = _
      rw [encodeChar_one (toNat_ofNat_of_valid (by omega)) hb, UInt8.ofNat_toNat]
    · rw [Progress.begin, hlead]
  · refine ⟨bytes ++ [b], [], List.append_nil _, ?_, ?_⟩
    · rw [Progress.begin, hlead, List.reverse_cons]
      apply h.concat
      show [b].length = 1
      rfl
    · rw [Progress.begin, hlead]
  · refine ⟨bytes, [b], rfl, ?_, ?_⟩
    · rw [Progress.begin, hlead]
      exact h
    · rw [Progress.begin, hlead]
      exact .lead hlead

theorem Progress.covers_step (h : p.Covers bytes) (b : UInt8) :
    (p.step b).Covers (bytes ++ [b]) := by
  obtain ⟨before, under, rfl, hbefore, hunder⟩ := h
  cases hp : p.pending with
  | none =>
    rw [hp] at hunder
    cases hunder
    rw [step_start hp, List.append_nil]
    exact covers_begin hbefore b
  | some q =>
    rw [hp] at hunder
    by_cases hb : q.low ≤ b ∧ b ≤ q.high
    · cases hmissing : q.missing with
      | zero =>
        rw [step_last hp hb.1 hb.2 hmissing, List.append_assoc]
        refine ⟨before ++ (under ++ [b]), [], List.append_nil _, ?_, rfl⟩
        rw [List.reverse_cons]
        exact hbefore.concat (hunder.encodes hb.1 hb.2 hmissing)
      | succ more =>
        rw [step_more hp more hb.1 hb.2 hmissing, List.append_assoc]
        exact ⟨before, under ++ [b], rfl, hbefore, hunder.more hb.1 hb.2 hmissing⟩
    · rw [step_broken hp hb]
      apply covers_begin
      rw [List.reverse_cons]
      exact hbefore.concat hunder.length_eq

theorem Progress.covers_run (h : p.Covers bytes) (more : List UInt8) :
    (more.foldl Progress.step p).Covers (bytes ++ more) := by
  induction more generalizing p bytes with
  | nil => rwa [List.append_nil]
  | cons b more ih =>
    rw [List.foldl_cons, List.append_cons]
    exact ih (covers_step h b)

theorem Progress.Covers.finish (h : p.Covers bytes) : Spelled p.finish bytes := by
  obtain ⟨before, under, rfl, hbefore, hunder⟩ := h
  cases hp : p.pending with
  | none =>
    rw [hp] at hunder
    cases hunder
    rwa [Progress.finish, hp, List.append_nil]
  | some q =>
    rw [hp] at hunder
    rw [Progress.finish, hp]
    show Spelled (Piece.cut q.size :: p.done).reverse _
    rw [List.reverse_cons]
    exact hbefore.concat hunder.length_eq

end

/-- Any bytes fall into runs, one for each piece: a character stands for its own
bytes, and a faulty piece for as many as it says. -/
theorem pieces_spelled (bytes : List UInt8) : Spelled (pieces bytes) bytes := by
  have hstart : Progress.Covers {} [] := ⟨[], [], rfl, ⟨[], rfl, .nil⟩, rfl⟩
  exact (Progress.covers_run hstart bytes).finish

/-- The bytes of a character that was read are among those it was read from. -/
theorem Spelled.mem {found : List Piece} {bytes : List UInt8} (h : Spelled found bytes) {c : Char}
    (hc : .char c ∈ found) {b : UInt8} (hb : b ∈ String.utf8EncodeChar c) : b ∈ bytes := by
  obtain ⟨runs, rfl, hspells⟩ := h
  induction hspells with
  | nil => cases hc
  | cons hspell _ ih =>
    rw [List.flatten_cons, List.mem_append]
    cases hc with
    | head =>
      left
      rwa [show _ = _ from hspell]
    | tail _ hc => exact .inr (ih hc)

/-- An ASCII character is shown only where its byte is. -/
theorem mem_of_mem_lossy {a : Char} {bytes : List UInt8} (ha : a.val ≤ 127)
    (h : a ∈ lossy bytes) : a.toUInt8 ∈ bytes := by
  obtain ⟨piece, hpiece, hshown⟩ := List.mem_map.mp h
  cases piece with
  | char c =>
    have hc : c = a := hshown
    apply (pieces_spelled bytes).mem hpiece
    rw [hc, encodeChar_ascii ha]
    exact List.mem_singleton_self _
  | broken | cut =>
    -- U+FFFD is not ASCII
    have hshown : '\uFFFD' = a := hshown
    rw [← hshown] at ha
    exact absurd ha (by decide)

end Phrasebook.Utf8
