import Phrasebook.Proofs.Markup.Document

/-
  What an element keeps of its content, and what it does not.

  Comments and instructions come and go, a text is cut into pieces or put together,
  and it moves past an element beside it; white space is put at the two ends of the
  content of an element. None of this shows in the element, at whatever depth it is
  done. And it is all that does not show: two elements that are the same come from
  content that can be changed from the one to the other in these steps.

  What is proved:
    1. `ofNode?_eq_some_iff` — the element of a node has the name and the attributes as
       they stand, the elements of the nodes inside in their order, and the direct text
       as a whole, trimmed.
    2. `Akin.kept` — changes keep the elements of a row and its direct text.
    3. `akin_gathered` — every row is changed into one text with the elements behind it.
    4. `akin_iff`, `akin_element_iff` — so changes lead everywhere where the same is kept.
    5. `fragments_ignored` — all this for the element of a node.
-/

namespace Phrasebook

namespace Text

structure Trimmed (text rest : List Char) : Prop where
  ends : ∃ before behind, Markup.Blank before ∧ Markup.Blank behind ∧
    text = before ++ (rest ++ behind)
  first : ∀ c ∈ rest.head?, isBlank c = false
  last : ∀ c ∈ rest.getLast?, isBlank c = false

theorem trimmed_trim (text : List Char) : Trimmed text (trim text) := by
  have hends : trim text ++ (text.dropWhile isBlank).rtakeWhile isBlank =
      text.dropWhile isBlank := List.rdropWhile_append_rtakeWhile
  constructor
  · refine ⟨text.takeWhile isBlank, (text.dropWhile isBlank).rtakeWhile isBlank,
      fun _ => List.mem_takeWhile_imp, fun _ => List.mem_rtakeWhile_imp, ?_⟩
    rw [hends, List.takeWhile_append_dropWhile]
  · intro c hc
    -- what is left begins as it did before its end was cut off
    have hhead : (text.dropWhile isBlank).head? = some c := by
      rw [← hends, List.head?_append, hc]
      rfl
    have := List.head?_dropWhile_not isBlank text
    rwa [hhead] at this
  · intro c hc
    have := List.head?_dropWhile_not isBlank (text.dropWhile isBlank).reverse
    rw [trim, List.getLast?_reverse] at hc
    rwa [hc] at this

theorem dropWhile_of_head? {p : Char → Bool} {text : List Char}
    (h : ∀ c ∈ text.head?, p c = false) : text.dropWhile p = text := by
  cases text with
  | nil => rfl
  | cons c text => exact List.dropWhile_cons_of_neg (by simp [h c rfl])

theorem Trimmed.eq_trim {text rest : List Char} (h : Trimmed text rest) : rest = trim text := by
  obtain ⟨before, behind, hbefore, hbehind, rfl⟩ := h.ends
  have hlast : rest.reverse.dropWhile isBlank = rest.reverse := by
    apply dropWhile_of_head?
    rw [List.head?_reverse]
    exact h.last
  rw [trim_append_left hbefore, trim_append_right hbehind, trim, dropWhile_of_head? h.first,
    hlast, List.reverse_reverse]

end Text

namespace Markup

open Element

/-! ## What is kept -/

def Node.isElement : Node → Bool
  | .element .. => true
  | .text _ | .comment _ | .instruction .. => false

/-- What an element keeps of the node it is made of: the name and the attributes as they
stand, the elements made of its element nodes in their order, and its direct text as a
whole, trimmed. -/
inductive Gives : Node → Element → Prop
  | element {name : String} {attributes : List (String × String)} {content : List Node}
    {children : List Element} {text : String}
    (hchildren : List.Forall₂ Gives (content.filter Node.isElement) children)
    (htext : Text.Trimmed (directText content) text.toList) :
    Gives (.element name attributes content) ⟨name, attributes, children, text⟩

@[simp] theorem ofNode?_element (name : String) (attributes : List (String × String))
    (content : List Node) :
    ofNode? (.element name attributes content) =
      some ⟨name, attributes, childrenOf content,
        String.ofList (Text.trim (directText content))⟩ := by
  rw [ofNode?]

@[simp] theorem childrenOf_nil : childrenOf [] = [] := by rw [childrenOf]

@[simp] theorem childrenOf_cons (node : Node) (rest : List Node) :
    childrenOf (node :: rest) = (ofNode? node).toList ++ childrenOf rest := by
  rw [childrenOf]
  cases ofNode? node <;> rfl

@[simp] theorem directText_nil : directText [] = [] := List.flatMap_nil

@[simp] theorem directText_cons (node : Node) (rest : List Node) :
    directText (node :: rest) = node.ownText ++ directText rest :=
  List.flatMap_cons

@[simp] theorem directText_append (row row' : List Node) :
    directText (row ++ row') = directText row ++ directText row' :=
  List.flatMap_append

/-- The elements of a row are made of its element nodes in their order, if each node
gives the element that is made of it. -/
theorem childrenOf_eq_iff {row : List Node}
    (h : ∀ node ∈ row, ∀ e, ofNode? node = some e ↔ Gives node e) {children : List Element} :
    childrenOf row = children ↔ List.Forall₂ Gives (row.filter Node.isElement) children := by
  induction row generalizing children with
  | nil => simp [eq_comm]
  | cons node row ih =>
    obtain ⟨hnode, hrow⟩ := List.forall_mem_cons.mp h
    rw [childrenOf_cons]
    cases node with
    | element name attributes content =>
      rw [ofNode?_element, List.filter_cons_of_pos rfl]
      constructor
      · rintro rfl
        exact .cons ((hnode _).mp (ofNode?_element ..)) ((ih hrow).mp rfl)
      · intro hall
        cases hall with
        | cons hfirst hrest =>
          have := (hnode _).mpr hfirst
          rw [ofNode?_element, Option.some.injEq] at this
          rw [this, (ih hrow).mpr hrest]
          rfl
    | text | comment | instruction =>
      rw [List.filter_cons_of_neg (by simp [Node.isElement])]
      exact ih hrow

/-- The element of a node keeps what `Gives` says, and no other does. -/
theorem ofNode?_eq_some_iff : (node : Node) → (e : Element) →
    (ofNode? node = some e ↔ Gives node e)
  | .element name attributes content, e => by
    have hchildren := @childrenOf_eq_iff content fun node _ => ofNode?_eq_some_iff node
    rw [ofNode?_element, Option.some.injEq]
    constructor
    · rintro rfl
      refine .element (hchildren.mp rfl) ?_
      rw [String.toList_ofList]
      exact Text.trimmed_trim _
    · intro h
      cases h with
      | element hforall htext =>
        rw [hchildren.mpr hforall, ← htext.eq_trim, String.ofList_toList]
  | .text _, e | .comment _, e | .instruction .., e => ⟨by simp [ofNode?], nofun⟩

/-! ## Changes that are not seen -/

/-- A node that an element keeps nothing of: a comment, an instruction, or a text
without characters. -/
def Node.Silent : Node → Prop
  | .element .. => False
  | .text s => s = ""
  | .comment _ | .instruction .. => True

/-- One change of a row of nodes: a silent node is put in, a text is split in two or
moves past the element behind it, white space is put before or behind all that an
element holds. It is made at the front of the row, or further `behind`, or `inside` an
element, to any depth. -/
inductive Change : List Node → List Node → Prop
  | silent {node : Node} (h : node.Silent) (rest : List Node) : Change rest (node :: rest)
  | split (s t : String) (rest : List Node) :
    Change (.text (s ++ t) :: rest) (.text s :: .text t :: rest)
  | move (s name : String) (attributes : List (String × String)) (content rest : List Node) :
    Change (.text s :: .element name attributes content :: rest)
      (.element name attributes content :: .text s :: rest)
  | lead {s : String} (h : Blank s.toList) (name : String)
    (attributes : List (String × String)) (content rest : List Node) :
    Change (.element name attributes content :: rest)
      (.element name attributes (.text s :: content) :: rest)
  | trail {s : String} (h : Blank s.toList) (name : String)
    (attributes : List (String × String)) (content rest : List Node) :
    Change (.element name attributes content :: rest)
      (.element name attributes (content ++ [.text s]) :: rest)
  | inside (name : String) (attributes : List (String × String)) {content content' : List Node}
    (h : Change content content') (rest : List Node) :
    Change (.element name attributes content :: rest)
      (.element name attributes content' :: rest)
  | behind (node : Node) {rest rest' : List Node} (h : Change rest rest') :
    Change (node :: rest) (node :: rest')

/-- Rows that come from each other by changes, made or taken back. -/
abbrev Akin : List Node → List Node → Prop := Relation.EqvGen Change

theorem Change.kept {row row' : List Node} (h : Change row row') :
    childrenOf row = childrenOf row' ∧ directText row = directText row' := by
  induction h with
  | @silent node h rest =>
    cases node with
    | element => exact h.elim
    | text s =>
      cases h
      simp [ofNode?, Node.ownText]
    | comment | instruction => simp [ofNode?, Node.ownText]
  | split s t rest => simp [ofNode?, Node.ownText]
  | move s name attributes content rest => simp [ofNode?, Node.ownText]
  | lead h name attributes content rest =>
    have htext := Text.trim_append_left h (directText content)
    simp [ofNode?, Node.ownText, htext]
  | trail h name attributes content rest =>
    have htext := Text.trim_append_right h (directText content)
    simp [ofNode?, Node.ownText, childrenOf_append, htext]
  | inside name attributes _ rest ih => simp [Node.ownText, ih]
  | behind node _ ih => simp [ih]

theorem Akin.kept {row row' : List Node} (h : Akin row row') :
    childrenOf row = childrenOf row' ∧ directText row = directText row' := by
  induction h with
  | rel _ _ h => exact h.kept
  | refl _ => exact ⟨rfl, rfl⟩
  | symm _ _ _ ih => exact ⟨ih.1.symm, ih.2.symm⟩
  | trans _ _ _ _ _ ih ih' => exact ⟨ih.1.trans ih'.1, ih.2.trans ih'.2⟩

/-! ## A row gathered -/

instance : Trans Akin Akin Akin := ⟨Relation.EqvGen.trans _ _ _⟩

/-- Changes that can be made in a row can be made in what is built around it. -/
theorem Akin.lift {f : List Node → List Node}
    (hf : ∀ {row row' : List Node}, Change row row' → Change (f row) (f row'))
    {row row' : List Node} (h : Akin row row') : Akin (f row) (f row') := by
  induction h with
  | rel _ _ h => exact .rel _ _ (hf h)
  | refl _ => exact .refl _
  | symm _ _ _ ih => exact .symm _ _ ih
  | trans _ _ _ _ _ ih ih' => exact .trans _ _ _ ih ih'

theorem Akin.behind (node : Node) {row row' : List Node} (h : Akin row row') :
    Akin (node :: row) (node :: row') :=
  h.lift (.behind node)

theorem Akin.inside (name : String) (attributes : List (String × String))
    {content content' : List Node} (h : Akin content content') (rest : List Node) :
    Akin (.element name attributes content :: rest) (.element name attributes content' :: rest) :=
  h.lift fun h => .inside name attributes h rest

mutual
/-- A node that an element is made of: its text, and behind that its children. -/
def nodeOf : Element → Node
  | ⟨name, attributes, children, content⟩ =>
    .element name attributes (.text content :: nodesOf children)

def nodesOf : List Element → List Node
  | [] => []
  | e :: rest => nodeOf e :: nodesOf rest
end

theorem akin_move (s : String) (e : Element) (rest : List Node) :
    Akin (.text s :: nodeOf e :: rest) (nodeOf e :: .text s :: rest) := by
  obtain ⟨name, attributes, children, content⟩ := e
  rw [nodeOf]
  exact .rel _ _ (.move ..)

/-- A text moves past all elements of a row. -/
theorem akin_move_last (s : String) (elements : List Element) :
    Akin (.text s :: nodesOf elements) (nodesOf elements ++ [.text s]) := by
  induction elements with
  | nil => exact .refl _
  | cons e elements ih =>
    rw [nodesOf, List.cons_append]
    exact (akin_move s e _).trans _ _ _ (ih.behind _)

/-- The text of an element is trimmed by taking white space from the two ends of its
content. -/
theorem akin_trim (name : String) (attributes : List (String × String)) (text : List Char)
    (children : List Element) (rest : List Node) :
    Akin (.element name attributes (.text (String.ofList text) :: nodesOf children) :: rest)
      (nodeOf ⟨name, attributes, children, String.ofList (Text.trim text)⟩ :: rest) := by
  obtain ⟨before, behind, hbefore, hbehind, htext⟩ := (Text.trimmed_trim text).ends
  have hsplit : ∀ (s t : List Char) (after : List Node),
      Akin (.element name attributes (.text (String.ofList (s ++ t)) :: after) :: rest)
        (.element name attributes (.text (String.ofList s) :: .text (String.ofList t) :: after) ::
          rest) := by
    intro s t after
    rw [String.ofList_append]
    exact .inside name attributes (.rel _ _ (.split ..)) rest
  have hbefore' : Blank (String.ofList before).toList := by rwa [String.toList_ofList]
  have hbehind' : Blank (String.ofList behind).toList := by rwa [String.toList_ofList]
  rw [nodeOf]
  -- what is at the front is split off and taken out; what is at the end is split off,
  -- too, but has to move past the children first
  calc Akin (.element name attributes (.text (String.ofList text) :: nodesOf children) :: rest)
        (.element name attributes (.text (String.ofList before) ::
          .text (String.ofList (Text.trim text ++ behind)) :: nodesOf children) :: rest) := by
        have := hsplit before (Text.trim text ++ behind) (nodesOf children)
        rwa [← htext] at this
    Akin _ (.element name attributes
          (.text (String.ofList (Text.trim text ++ behind)) :: nodesOf children) :: rest) :=
        .symm _ _ (.rel _ _ (.lead hbefore' ..))
    Akin _ (.element name attributes (.text (String.ofList (Text.trim text)) ::
          .text (String.ofList behind) :: nodesOf children) :: rest) := hsplit ..
    Akin _ (.element name attributes (.text (String.ofList (Text.trim text)) ::
          (nodesOf children ++ [.text (String.ofList behind)])) :: rest) :=
        .inside name attributes ((akin_move_last ..).behind _) rest
    Akin _ (.element name attributes
          (.text (String.ofList (Text.trim text)) :: nodesOf children) :: rest) :=
        .symm _ _ (.rel _ _ (.trail hbehind' ..))

/-- The text of a row, and behind it its elements. -/
def gathered (row : List Node) : List Node :=
  .text (String.ofList (directText row)) :: nodesOf (childrenOf row)

theorem akin_gathered_of_silent (node : Node) (h : node.Silent) {rest : List Node}
    (hrest : Akin rest (gathered rest)) : Akin (node :: rest) (gathered (node :: rest)) := by
  have hsilent := Change.silent h rest
  rw [gathered, ← hsilent.kept.1, ← hsilent.kept.2]
  exact .trans _ _ _ (.symm _ _ (.rel _ _ hsilent)) hrest

/-- Every row can be gathered, and so can the content of every element in it. -/
theorem akin_gathered : (row : List Node) → Akin row (gathered row)
  | [] => .rel _ _ (@Change.silent (.text "") rfl [])
  | .comment text :: rest => akin_gathered_of_silent (.comment text) trivial (akin_gathered rest)
  | .instruction target data :: rest =>
    akin_gathered_of_silent (.instruction target data) trivial (akin_gathered rest)
  | .text s :: rest => by
    have hsplit := Change.split s (String.ofList (directText rest)) (nodesOf (childrenOf rest))
    have hgathered : gathered (.text s :: rest) =
        .text (s ++ String.ofList (directText rest)) :: nodesOf (childrenOf rest) := by
      simp [gathered, ofNode?, Node.ownText]
    rw [hgathered]
    exact ((akin_gathered rest).behind (.text s)).trans _ _ _ (.symm _ _ (.rel _ _ hsplit))
  | .element name attributes content :: rest => by
    let e : Element := ⟨name, attributes, childrenOf content,
      String.ofList (Text.trim (directText content))⟩
    -- the content is gathered and trimmed, the rest is gathered, and its text comes before
    calc Akin (.element name attributes content :: rest)
          (.element name attributes (gathered content) :: rest) :=
          (akin_gathered content).inside name attributes rest
      Akin _ (nodeOf e :: rest) := akin_trim ..
      Akin _ (nodeOf e :: gathered rest) := (akin_gathered rest).behind _
      Akin _ (gathered (.element name attributes content :: rest)) := by
        have := akin_move (String.ofList (directText rest)) e (nodesOf (childrenOf rest))
        simpa [gathered, Node.ownText, nodesOf, e] using this.symm

/-- Two rows are changed into each other exactly if the same is kept of both. -/
theorem akin_iff {row row' : List Node} :
    Akin row row' ↔ childrenOf row = childrenOf row' ∧ directText row = directText row' := by
  constructor
  · exact Akin.kept
  · rintro ⟨hchildren, htext⟩
    have := akin_gathered row'
    rw [gathered, ← hchildren, ← htext] at this
    exact (akin_gathered row).trans _ _ _ this.symm

/-- So are two elements exactly if they are made into the same. -/
theorem akin_element_iff {name name' : String} {attributes attributes' : List (String × String)}
    {content content' : List Node} :
    Akin [.element name attributes content] [.element name' attributes' content'] ↔
      ofNode? (.element name attributes content) =
        ofNode? (.element name' attributes' content') := by
  rw [akin_iff]
  simp [Node.ownText]

/-- The element of a node keeps the name, the attributes as they stand, the elements of
the nodes inside in their order, and the direct text as a whole, trimmed; and so, by
the same rule, at every depth. It is left as it is by whatever changes are made in the
content of the node and in that of the nodes inside: comments and instructions put in
or taken out, a text cut or put together, a text moved past an element, white space at
the two ends of a content. And where it is the same, such changes lead from the one node
to the other. -/
theorem fragments_ignored :
    (∀ (name : String) (attributes : List (String × String)) (content : List Node),
      ∃ e, ofNode? (.element name attributes content) = some e ∧
        ∀ e', Gives (.element name attributes content) e' ↔ e' = e) ∧
    (∀ (name : String) (attributes : List (String × String)) (content content' : List Node),
      Akin content content' →
        ofNode? (.element name attributes content) =
          ofNode? (.element name attributes content')) ∧
    ∀ (name name' : String) (attributes attributes' : List (String × String))
      (content content' : List Node),
      Akin [.element name attributes content] [.element name' attributes' content'] ↔
        ofNode? (.element name attributes content) =
          ofNode? (.element name' attributes' content') := by
  refine ⟨?_, ?_, fun _ _ _ _ _ _ => akin_element_iff⟩
  · intro name attributes content
    refine ⟨_, ofNode?_element .., fun e' => ?_⟩
    rw [← ofNode?_eq_some_iff, ofNode?_element, Option.some.injEq, eq_comm]
  · intro name attributes content content' h
    exact akin_element_iff.mp (h.inside name attributes [])

/-- Text in pieces around an element and a comment, in which there is more of both. -/
def piecewise : List Node :=
  [.text " one", .comment "1", .text " \n", .element "b" [("n", "2")]
    [.text "two", .instruction "p" "", .text " three "], .text "four\t"]

/-- The same with the text before the element, and in one piece. -/
def joined : List Node :=
  [.text " one \nfour\t", .element "b" [("n", "2")] [.text "two three"], .comment "2"]

theorem fragments_ignored_piecewise :
    Akin piecewise joined ∧
      Element.ofNode? (.element "p" [] piecewise) = Element.ofNode? (.element "p" [] joined) ∧
      Gives (.element "p" [] piecewise)
        ⟨"p", [], [⟨"b", [("n", "2")], [], "two three"⟩], "one \nfour"⟩ := by
  obtain ⟨hgives, hchanged, -⟩ := fragments_ignored
  have hakin : Akin piecewise joined := akin_iff.mpr ⟨by decide +kernel, by decide +kernel⟩
  obtain ⟨e, he, hunique⟩ := hgives "p" [] piecewise
  have hshown : Element.ofNode? (.element "p" [] piecewise) =
      some ⟨"p", [], [⟨"b", [("n", "2")], [], "two three"⟩], "one \nfour"⟩ := by decide +kernel
  rw [hshown, Option.some.injEq] at he
  exact ⟨hakin, hchanged "p" [] _ _ hakin, (hunique _).mpr he⟩

end Markup

end Phrasebook
