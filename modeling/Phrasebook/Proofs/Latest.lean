import Mathlib.Data.List.Basic

/-
  What a history comes to.

  A history is a list of steps, the oldest first. That something stands after it
  is said of one step that has brought it about, with no step behind it that has
  undone it. Both the tags of a layer and the handlers of a desk stand in this
  sense.

  What is proved:
    1. `latest_concat` — with one more step behind a history, something stands if
       the step brings it about, or if it stood before and the step leaves it.
-/

namespace Phrasebook

/-- Something in a history has `p`, and all that comes after it has `q`. -/
def Latest {α : Type} (p q : α → Prop) (history : List α) : Prop :=
  ∃ before a after, history = before ++ a :: after ∧ p a ∧ ∀ later ∈ after, q later

section
variable {α : Type} {p q : α → Prop} {history : List α} {a : α}

theorem not_latest_nil : ¬Latest p q [] := by
  intro h
  obtain ⟨before, a, after, hnil, -⟩ := h
  simp at hnil

theorem latest_concat : Latest p q (history ++ [a]) ↔ p a ∨ q a ∧ Latest p q history := by
  constructor
  · intro h
    obtain ⟨before, b, after, hsplit, hb, hafter⟩ := h
    -- what has `p` is the last in the history, or comes before it
    cases List.eq_nil_or_concat' after with
    | inl hnil =>
      subst hnil
      obtain ⟨-, hlast⟩ := List.append_inj' hsplit rfl
      cases hlast
      exact .inl hb
    | inr hconcat =>
      obtain ⟨after, last, rfl⟩ := hconcat
      rw [← List.cons_append, ← List.append_assoc] at hsplit
      obtain ⟨hhistory, hlast⟩ := List.append_inj' hsplit rfl
      cases hlast
      refine .inr ⟨hafter a (by simp), before, b, after, hhistory, hb, ?_⟩
      intro later hlater
      exact hafter later (List.mem_append_left [a] hlater)
  · intro h
    cases h with
    | inl ha => exact ⟨history, a, [], rfl, ha, by simp⟩
    | inr hold =>
      obtain ⟨ha, before, b, after, hhistory, hb, hafter⟩ := hold
      refine ⟨before, b, after ++ [a], by simp [hhistory], hb, ?_⟩
      intro later hlater
      cases List.mem_append.mp hlater with
      | inl hmem => exact hafter later hmem
      | inr hmem =>
        rw [List.mem_singleton.mp hmem]
        exact ha

end

end Phrasebook
