import Phrasebook.Text.Basic

/-
  Placeholders `${NAME}` and `${NAME:default}` in a text.

  A name is a row of ASCII letters, digits and underscores, a default any text
  without `}`. The leftmost placeholder is replaced first and reading goes on
  behind it: by the value of its name, or else by its default, or else by
  nothing. What is put in is not read again.

  Correspondence:
    `var_regex`                         ↔ `Placeholder.read?`
    `replace_vars_with`, `replace_vars` ↔ `Placeholder.replaceAll`
-/

namespace Phrasebook

/-- A placeholder, with its default if it has one. -/
structure Placeholder where
  name : List Char
  fallback : Option (List Char)
  deriving DecidableEq, Repr

namespace Placeholder

def isNameChar (c : Char) : Bool := c.isAlphanum || c == '_'

def chars (p : Placeholder) : List Char :=
  match p.fallback with
  | none => '$' :: '{' :: p.name ++ ['}']
  | some d => '$' :: '{' :: p.name ++ ':' :: d ++ ['}']

/-- What a placeholder must be to be one. -/
def Proper (p : Placeholder) : Prop :=
  p.name ≠ [] ∧ (∀ c ∈ p.name, isNameChar c) ∧ ∀ d ∈ p.fallback, '}' ∉ d

/-- The placeholder that the text starts with, behind its `${`, and the text
after it. -/
def read? (text : List Char) : Option (Placeholder × List Char) :=
  let name := text.takeWhile isNameChar
  if name = [] then none
  else match text.dropWhile isNameChar with
    | '}' :: rest => some (⟨name, none⟩, rest)
    | ':' :: rest =>
      match rest.dropWhile (· != '}') with
      | [] => none
      | _ :: after => some (⟨name, some (rest.takeWhile (· != '}'))⟩, after)
    | _ => none

theorem read?_length {text after : List Char} {p : Placeholder}
    (h : read? text = some (p, after)) : after.length < text.length := by
  have hd := Text.length_dropWhile_le isNameChar text
  simp only [read?] at h
  split at h
  · simp at h
  · split at h
    · rename_i hn
      rw [hn] at hd
      simp only [Option.some.injEq, Prod.mk.injEq] at h
      obtain ⟨_, rfl⟩ := h
      exact hd
    · rename_i hn
      rw [hn] at hd
      split at h
      · simp at h
      · rename_i hc
        have := Text.length_lt_of_dropWhile_eq hc
        simp only [Option.some.injEq, Prod.mk.injEq] at h
        obtain ⟨_, rfl⟩ := h
        simp only [List.length_cons] at hd
        omega
    · simp at h

def value (lookup : String → Option String) (p : Placeholder) : String :=
  match lookup (String.ofList p.name) with
  | some v => v
  | none => String.ofList (p.fallback.getD [])

/-- Reads on, with `out` written so far. -/
def substitute (lookup : String → Option String) : List Char → (out : String) → String
  | [], out => out
  | '$' :: '{' :: rest, out =>
    match h : read? rest with
    | some (p, after) =>
      have := read?_length h
      substitute lookup after (out ++ p.value lookup)
    | none => substitute lookup ('{' :: rest) (out.push '$')
  | c :: rest, out => substitute lookup rest (out.push c)
termination_by text => text.length

def replaceAll (lookup : String → Option String) (text : String) : String :=
  substitute lookup text.toList ""

end Placeholder

end Phrasebook
