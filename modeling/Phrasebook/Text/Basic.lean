/-
  White space, digits, and runs of characters.

  White space is what Unicode's White_Space property has. A run is the longest
  start of a list whose members have a property: behind it the list has not grown,
  and behind the member that ends it the list is shorter, so readers that go on there
  come to an end. What is written as a run and a member that ends it is read as that.
-/

namespace Phrasebook.Text

/-! ## White space -/

/-- The characters with the White_Space property. -/
def isBlank (c : Char) : Bool :=
  let n := c.toNat
  (0x09 ≤ n && n ≤ 0x0D) || n == 0x20 || n == 0x85 || n == 0xA0 || n == 0x1680 ||
    (0x2000 ≤ n && n ≤ 0x200A) || n == 0x2028 || n == 0x2029 || n == 0x202F ||
    n == 0x205F || n == 0x3000

def trim (text : List Char) : List Char :=
  ((text.dropWhile isBlank).reverse.dropWhile isBlank).reverse

/-! ## Numbers -/

/-- The value of a digit of a numeral system with at most sixteen digits. -/
def digit? (radix : Nat) (c : Char) : Option Nat :=
  let n :=
    if c.isDigit then c.toNat - '0'.toNat
    else if 'a' ≤ c ∧ c ≤ 'f' then c.toNat - 'a'.toNat + 10
    else if 'A' ≤ c ∧ c ≤ 'F' then c.toNat - 'A'.toNat + 10
    else 16
  if n < radix then some n else none

/-- The number that a non-empty row of digits writes. -/
def number? (radix : Nat) (digits : List Char) : Option Nat :=
  if digits.isEmpty then none
  else digits.foldlM (fun n c => (digit? radix c).map (n * radix + ·)) 0

/-! ## Runs -/

theorem length_dropWhile_le {α : Type} (p : α → Bool) (l : List α) :
    (l.dropWhile p).length ≤ l.length :=
  (List.dropWhile_sublist p).length_le

theorem length_lt_of_dropWhile_eq {α : Type} {p : α → Bool} {l rest : List α} {a : α}
    (h : l.dropWhile p = a :: rest) : rest.length < l.length := by
  have := length_dropWhile_le p l
  rw [h, List.length_cons] at this
  exact this

section
variable {α : Type} {p : α → Bool} {stop : α}

theorem takeWhile_append_stop (hstop : p stop = false) (l rest : List α) :
    (l ++ stop :: rest).takeWhile p = l.takeWhile p := by
  induction l with
  | nil => simp [hstop]
  | cons a l ih => cases ha : p a <;> simp [ha, ih]

theorem dropWhile_append_stop (hstop : p stop = false) (l rest : List α) :
    (l ++ stop :: rest).dropWhile p = l.dropWhile p ++ stop :: rest := by
  induction l with
  | nil => simp [hstop]
  | cons a l ih => cases ha : p a <;> simp [ha, ih]

theorem run_append {l after : List α} {a : α} (h : l.dropWhile p = a :: after) (rest : List α) :
    (l ++ rest).takeWhile p = l.takeWhile p ∧ (l ++ rest).dropWhile p = a :: after ++ rest := by
  induction l with
  | nil => simp at h
  | cons b l ih =>
    cases hb : p b with
    | true =>
      rw [List.dropWhile_cons_of_pos hb] at h
      simp [hb, ih h]
    | false =>
      rw [List.dropWhile_cons_of_neg (by simp [hb])] at h
      cases h
      simp [hb]

variable {run : List α} (rest : List α)

theorem takeWhile_run (hrun : ∀ a ∈ run, p a = true) (hstop : p stop = false) :
    (run ++ stop :: rest).takeWhile p = run := by
  rw [List.takeWhile_append_of_pos hrun, List.takeWhile_cons_of_neg (by simp [hstop]),
    List.append_nil]

theorem dropWhile_run (hrun : ∀ a ∈ run, p a = true) (hstop : p stop = false) :
    (run ++ stop :: rest).dropWhile p = stop :: rest := by
  rw [List.dropWhile_append_of_pos hrun, List.dropWhile_cons_of_neg (by simp [hstop])]

variable [DecidableEq α]

theorem takeWhile_ne (h : stop ∉ run) : (run ++ stop :: rest).takeWhile (· != stop) = run :=
  takeWhile_run rest (fun _ ha => bne_iff_ne.mpr (ne_of_mem_of_not_mem ha h)) (by simp)

theorem dropWhile_ne (h : stop ∉ run) :
    (run ++ stop :: rest).dropWhile (· != stop) = stop :: rest :=
  dropWhile_run rest (fun _ ha => bne_iff_ne.mpr (ne_of_mem_of_not_mem ha h)) (by simp)

end

end Phrasebook.Text
