import Mathlib
import Phrasebook.Markup.Element
import Phrasebook.Proofs.Markup.Content
import Phrasebook.Proofs.Markup.Lexeme

/-
  Documents put together from pieces.

  What stands between two tags goes into the element that is open there, and
  nothing around that element has a say in it but the bindings in force. So a
  document by itself, put into an element without bindings, becomes one child of
  it, the same one as by itself.

  What is proved:
    1. `Adds.append`, `adds_stretch`, `adds_element` — the nodes that the pieces
       of a document add.
    2. `follows_step`, `follows_run`, `adds_of_root` — what a document adds inside
       an element: one lexeme, a row of them, the whole.
    3. `Holds.append`, `holds_stretch`, `holds_comment`, `holds_element`,
       `holds_tag`, `holds_document` — the child elements that a text holds.
    4. `ofText_element` — the element that is read from a root around them.
    5. `Mixed.exists_holds` — what is written with elements and comments nested at
       any depth can be read.
-/

namespace Phrasebook.Markup

open Element

/-! ## Nodes that are added -/

/-- The row adds the nodes to the element it stands in, if no bindings are in
force there, and changes nothing else. -/
def Adds (row : List Lexeme) (nodes : List Node) : Prop :=
  ∀ (f : Frame) (outer : List Frame), f.tag.bindings = [] →
    row.foldlM Progress.step? { frames := f :: outer } =
      some { frames := { f with content := nodes.reverse ++ f.content } :: outer }

theorem Adds.nil : Adds [] [] := fun _ _ _ => rfl

theorem Adds.append {row row' : List Lexeme} {nodes nodes' : List Node} (h : Adds row nodes)
    (h' : Adds row' nodes') : Adds (row ++ row') (nodes ++ nodes') := by
  intro f outer hf
  rw [List.foldlM_append, h f outer hf]
  have hnext := h' { f with content := nodes.reverse ++ f.content } outer hf
  rw [Option.bind_eq_bind, Option.bind_some, hnext, List.reverse_append, List.append_assoc]

theorem adds_comment (body : List Char) :
    Adds [.comment body] [.comment (String.ofList body)] :=
  fun _ _ _ => rfl

/-- A stretch of text adds at most one node. -/
theorem adds_stretch {s : Stretch} (h : s.Exact) :
    ∃ nodes, Adds (textRow s.markup) nodes ∧ childrenOf nodes = [] ∧
      directText nodes = contentText s.glyphs := by
  have hglyphs := h.glyphs?
  cases hmarkup : s.markup with
  | nil =>
    rw [hmarkup, glyphs?, glyphs?.go] at hglyphs
    refine ⟨[], Adds.nil, rfl, ?_⟩
    rw [← Option.some.inj hglyphs]
    rfl
  | cons c markup =>
    rw [hmarkup] at hglyphs
    refine ⟨[.text (String.ofList (contentText s.glyphs))], ?_, rfl, ?_⟩
    · intro f outer hf
      simp [textRow, Progress.step?, hglyphs, Progress.add]
    · simp [directText, Node.ownText]

/-! ## Elements -/

/-- The attributes of an element as a start tag has them. -/
def given (attributes : List (List Char × List Letter)) : List (List Char × List Char) :=
  attributes.map fun a => (a.1, lettersMarkup a.2)

/-- The attributes of an element as they are read. -/
def valued (attributes : List (List Char × List Letter)) : List (String × String) :=
  attributes.map fun a => (String.ofList a.1, String.ofList (lettersText a.2))

/-- Attributes that an element can have: no name twice, and none that binds a
namespace. -/
structure IsGiven (attributes : List (List Char × List Letter)) : Prop where
  names : ∀ a ∈ attributes, IsName a.1 ∧ a.1 ≠ "xmlns".toList
  letters : ∀ a ∈ attributes, ∀ l ∈ a.2, l.Exact
  distinct : (attributes.map Prod.fst).Nodup

instance (attributes : List (List Char × List Letter)) : Decidable (IsGiven attributes) :=
  decidable_of_iff ((∀ a ∈ attributes, IsName a.1 ∧ a.1 ≠ "xmlns".toList) ∧
      (∀ a ∈ attributes, ∀ l ∈ a.2, l.Exact) ∧ (attributes.map Prod.fst).Nodup)
    ⟨fun h => ⟨h.1, h.2.1, h.2.2⟩, fun h => ⟨h.names, h.letters, h.distinct⟩⟩

/-- An element as it is written around what stands in it. -/
def elementMarkup (name : List Char) (attributes : List (List Char × List Letter))
    (inner : List Char) : List Char :=
  startMarkup name (given attributes) ++ inner ++ closeMarkup name

/-- The lexemes of an element around those of what stands in it. -/
def elementRow (name : List Char) (attributes : List (List Char × List Letter))
    (row : List Lexeme) : List Lexeme :=
  .start ⟨[], name⟩ ((given attributes).map fun a => (⟨[], a.1⟩, a.2)) false ::
    row ++ [.close ⟨[], name⟩]

section
variable {name : List Char} {attributes : List (List Char × List Letter)}

theorem IsGiven.quotable (h : IsGiven attributes) : ∀ a ∈ given attributes, Quotable a := by
  intro a ha
  obtain ⟨b, hb, rfl⟩ := List.mem_map.mp ha
  obtain ⟨hallowed, hless, -, hquote⟩ := all_harmless (harmless_letters (h.letters b hb))
  exact ⟨(h.names b hb).1, hallowed, hless, hquote⟩

theorem lexed_element (hname : IsName name) (h : IsGiven attributes) {inner : List Char}
    {row : List Lexeme} (hinner : ∀ rest, Lexed (inner ++ '<' :: rest) row ('<' :: rest))
    (rest : List Char) :
    Lexed (elementMarkup name attributes inner ++ rest) (elementRow name attributes row) rest := by
  rw [elementMarkup, elementRow, List.append_assoc, List.append_assoc]
  exact (lexed_start _ hname h.quotable).trans ((hinner _).trans (lexed_close rest hname))

theorem add?_given (d : Declared) {a : List Char × List Letter} (hname : a.1 ≠ "xmlns".toList)
    (h : ∀ l ∈ a.2, l.Exact) :
    d.add? (⟨[], a.1⟩, lettersMarkup a.2) = some { d with
      attributes := (⟨[], a.1⟩, String.ofList (lettersText a.2)) :: d.attributes } := by
  have hglyphs := (readAs_letters h).glyphs?
  have hvalue := attributeText_letters h
  have hspace : ([] : List Char) ≠ "xmlns".toList := by decide
  simp only [Declared.add?, hglyphs, hvalue, Option.bind_eq_bind, Option.bind_some, hspace, hname,
    if_false]

theorem foldlM_add? (h : ∀ a ∈ attributes, a.1 ≠ "xmlns".toList ∧ ∀ l ∈ a.2, l.Exact)
    (d : Declared) :
    ((given attributes).map fun a => ((⟨[], a.1⟩, a.2) : QName × List Char)).foldlM
        Declared.add? d =
      some { d with attributes :=
        (attributes.map fun a => ((⟨[], a.1⟩, String.ofList (lettersText a.2)) :
          QName × String)).reverse ++ d.attributes } := by
  induction attributes generalizing d with
  | nil => rfl
  | cons a attributes ih =>
    obtain ⟨ha, hrest⟩ := List.forall_mem_cons.mp h
    have hadd := add?_given d ha.1 ha.2
    simp only [given, List.map_cons, List.foldlM_cons, hadd, Option.bind_eq_bind,
      Option.bind_some]
    rw [given] at ih
    rw [ih hrest]
    simp

theorem ofTag?_given (h : IsGiven attributes) :
    Opened.ofTag? [] ⟨[], name⟩ ((given attributes).map fun a => (⟨[], a.1⟩, a.2)) =
      some ⟨⟨[], name⟩, [], valued attributes⟩ := by
  have hattributes : ∀ a ∈ attributes, a.1 ≠ "xmlns".toList ∧ ∀ l ∈ a.2, l.Exact := by
    intro a ha
    exact ⟨(h.names a ha).2, h.letters a ha⟩
  have hkeys : (attributes.map fun a => ((⟨[], a.1⟩, String.ofList (lettersText a.2)) :
      QName × String)).mapM
        (fun entry => (namespaceOf? [] entry.1).map fun uri => (uri, entry.1.base)) =
        some (attributes.map fun a => (none, a.1)) := by
    rw [List.mapM_map]
    exact List.mapM_pure
  have hnodup : (attributes.map fun a => ((none : Option String), a.1)).Nodup := by
    have hdistinct := h.distinct.map (f := fun base => ((none : Option String), base))
      (by intro base base' heq; exact (Prod.mk.inj heq).2)
    rwa [List.map_map] at hdistinct
  rw [Opened.ofTag?, foldlM_add? hattributes]
  simp [hkeys, hnodup, valued]

theorem adds_element (h : IsGiven attributes) {row : List Lexeme} {nodes : List Node}
    (hrow : Adds row nodes) :
    Adds (elementRow name attributes row)
      [.element (String.ofList name) (valued attributes) nodes] := by
  intro f outer hf
  have hinner := hrow { tag := ⟨⟨[], name⟩, [], valued attributes⟩ } (f :: outer) rfl
  have hstart : Progress.step? { frames := f :: outer }
      (.start ⟨[], name⟩ ((given attributes).map fun a => (⟨[], a.1⟩, a.2)) false) =
        some { frames := { tag := ⟨⟨[], name⟩, [], valued attributes⟩ } :: f :: outer } := by
    simp [Progress.step?, Progress.bindings, hf, ofTag?_given h]
  rw [elementRow, List.cons_append, List.foldlM_cons, hstart, Option.bind_eq_bind,
    Option.bind_some, List.foldlM_append, hinner, Option.bind_eq_bind, Option.bind_some]
  simp [Progress.step?, Progress.add, Frame.node]

theorem rootOf?_element (h : IsGiven attributes) {row : List Lexeme} {nodes : List Node}
    (hrow : Adds row nodes) :
    rootOf? (elementRow name attributes row) =
      some (.element (String.ofList name) (valued attributes) nodes) := by
  have hinner := hrow { tag := ⟨⟨[], name⟩, [], valued attributes⟩ } [] rfl
  have hstart : Progress.step? {}
      (.start ⟨[], name⟩ ((given attributes).map fun a => (⟨[], a.1⟩, a.2)) false) =
        some { frames := [{ tag := ⟨⟨[], name⟩, [], valued attributes⟩ }] } := by
    simp [Progress.step?, Progress.bindings, ofTag?_given h]
  simp only [rootOf?, elementRow, List.cons_append, List.foldlM_cons, hstart, Option.bind_eq_bind,
    Option.bind_some, List.foldlM_append, hinner]
  simp [Progress.step?, Progress.add, Frame.node]

end

/-! ## A document inside an element -/

theorem childrenOf_append (nodes nodes' : List Node) :
    childrenOf (nodes ++ nodes') = childrenOf nodes ++ childrenOf nodes' := by
  induction nodes with
  | nil => rfl
  | cons node nodes ih =>
    rw [List.cons_append, childrenOf, childrenOf]
    split
    · rw [ih, List.cons_append]
    · exact ih

/-- Reading stands where it does in `p`, but inside a frame to which nodes have
been added. -/
def Progress.inside (p : Progress) (nodes : List Node) (f : Frame) (outer : List Frame) :
    Progress :=
  { frames := p.frames ++ { f with content := nodes.reverse ++ f.content } :: outer }

/-- The nodes hold the root, and there is none while an element is open. -/
structure Mirrors (nodes : List Node) (p : Progress) : Prop where
  children : childrenOf nodes = childrenOf p.root.toList
  root : p.frames ≠ [] → p.root = none

/-- Where `step` goes from `p` to `p'`, it does so inside a frame without bindings
as well, and the nodes it leaves there mirror `p'`. -/
def Follows (p : Progress) (nodes : List Node) (step : Progress → Option Progress)
    (p' : Progress) : Prop :=
  ∃ nodes', Mirrors nodes' p' ∧ ∀ (f : Frame) (outer : List Frame), f.tag.bindings = [] →
    step (p.inside nodes f outer) = some (p'.inside nodes' f outer)

section
variable {p p' : Progress} {nodes : List Node} {f : Frame} {outer : List Frame}

theorem bindings_inside (hf : f.tag.bindings = []) :
    (p.inside nodes f outer).bindings = p.bindings := by
  rw [Progress.bindings, Progress.bindings, Progress.inside]
  cases p.frames with
  | nil => exact hf
  | cons g frames => rfl

theorem isEmpty_inside : (p.inside nodes f outer).frames.isEmpty = false := by
  simp [Progress.inside]

theorem inside_closed (h : p.frames = []) :
    p.inside nodes f outer =
      { frames := { f with content := nodes.reverse ++ f.content } :: outer } := by
  rw [Progress.inside, h]
  rfl

/-- A node is added alike. Outside the root it is one more of the nodes, and so it
may be an element only if there is no root. -/
theorem mirrors_add (h : Mirrors nodes p) (node : Node)
    (hnode : p.frames = [] → p.root = none ∨ ofNode? node = none) :
    ∃ nodes', Mirrors nodes' (p.add node) ∧ ∀ (f : Frame) (outer : List Frame),
      (p.inside nodes f outer).add node = (p.add node).inside nodes' f outer := by
  cases hframes : p.frames with
  | cons g frames =>
    refine ⟨nodes, ?_, ?_⟩
    · have hroot := h.root (by simp [hframes])
      have hchildren := h.children
      constructor <;> simp [Progress.add, hframes, hroot, hchildren]
    · intro f outer
      simp [Progress.inside, Progress.add, hframes]
  | nil =>
    refine ⟨nodes ++ [node], ?_, ?_⟩
    · constructor
      · rw [childrenOf_append, h.children]
        cases node with
        | element name attributes content =>
          cases hnode hframes with
          | inl hroot => simp [Progress.add, hframes, hroot, childrenOf]
          | inr hnot => simp [ofNode?] at hnot
        | text | comment | instruction => simp [Progress.add, hframes, childrenOf, ofNode?]
      · intro hne
        cases node <;> simp [Progress.add, hframes] at hne
    · intro f outer
      have hadd : (p.add node).frames = [] := by
        cases node <;> simp [Progress.add, hframes]
      simp only [inside_closed hframes, inside_closed hadd, List.reverse_concat']
      rfl

theorem follows_of_add {q : Progress} {step : Progress → Option Progress} (h : Mirrors nodes p)
    (node : Node) (hnode : p.frames = [] → p.root = none ∨ ofNode? node = none)
    (hstep : ∀ (f : Frame) (outer : List Frame), f.tag.bindings = [] →
      step (q.inside nodes f outer) = some ((p.inside nodes f outer).add node)) :
    Follows q nodes step (p.add node) := by
  obtain ⟨nodes', hmirrors, hadd⟩ := mirrors_add h node hnode
  refine ⟨nodes', hmirrors, ?_⟩
  intro f outer hf
  rw [hstep f outer hf, hadd]

theorem follows_start (h : Mirrors nodes p) {name : QName}
    {attributes : List (QName × List Char)} {closed : Bool}
    (hl : p.step? (.start name attributes closed) = some p') :
    Follows p nodes (Progress.step? · (.start name attributes closed)) p' := by
  rw [Progress.step?] at hl
  split at hl
  · simp at hl
  · next hroom =>
    obtain ⟨tag, htag, heq⟩ := Option.map_eq_some_iff.mp hl
    have hroot : p.root = none := by
      by_cases hframes : p.frames = []
      · simpa [hframes] using hroom
      · exact h.root hframes
    cases closed with
    | true =>
      cases heq
      apply follows_of_add h _ (fun _ => .inl hroot)
      intro f outer hf
      simp [Progress.step?, isEmpty_inside, bindings_inside hf, htag]
    | false =>
      cases heq
      refine ⟨nodes, ⟨h.children, fun _ => hroot⟩, ?_⟩
      intro f outer hf
      simp only [Progress.step?, isEmpty_inside, bindings_inside hf, htag]
      rfl

theorem follows_close (h : Mirrors nodes p) {name : QName}
    (hl : p.step? (.close name) = some p') :
    Follows p nodes (Progress.step? · (.close name)) p' := by
  rw [Progress.step?] at hl
  split at hl
  · simp at hl
  · next g frames hframes =>
    split at hl
    · next hname =>
      cases hl
      have hroot := h.root (by simp [hframes])
      have hout : Mirrors nodes { p with frames := frames } := ⟨h.children, fun _ => hroot⟩
      apply follows_of_add hout _ (fun _ => .inl hroot)
      intro f outer hf
      simp [Progress.step?, Progress.inside, hframes, hname]
    · simp at hl

theorem follows_text (h : Mirrors nodes p) {markup : List Char}
    (hl : p.step? (.text markup) = some p') :
    Follows p nodes (Progress.step? · (.text markup)) p' := by
  have hadded : ∃ glyphs, glyphs? markup = some glyphs ∧
      p' = p.add (.text (String.ofList (contentText glyphs))) := by
    rw [Progress.step?] at hl
    split at hl
    · next hframes =>
      -- outside the root there is white space only, which is text inside
      rw [List.isEmpty_iff] at hframes
      simp only [Option.ite_none_right_eq_some, Option.some.injEq] at hl
      obtain ⟨hspace, rfl⟩ := hl
      have hamp : '&' ∉ markup := by
        intro hmem
        exact absurd (List.all_eq_true.mp hspace _ hmem) (by decide)
      exact ⟨_, (readAs_literals hamp).glyphs?, by simp [Progress.add, hframes]⟩
    · obtain ⟨glyphs, hglyphs, rfl⟩ := Option.map_eq_some_iff.mp hl
      exact ⟨glyphs, hglyphs, rfl⟩
  obtain ⟨glyphs, hglyphs, rfl⟩ := hadded
  apply follows_of_add h _ (fun _ => .inr rfl)
  intro f outer hf
  simp [Progress.step?, isEmpty_inside, hglyphs]

theorem follows_step (h : Mirrors nodes p) {l : Lexeme} (hl : p.step? l = some p') :
    Follows p nodes (Progress.step? · l) p' := by
  cases l with
  | start name attributes closed => exact follows_start h hl
  | close name => exact follows_close h hl
  | text markup => exact follows_text h hl
  | verbatim text =>
    rw [Progress.step?] at hl
    split at hl
    · simp at hl
    · cases hl
      apply follows_of_add h _ (fun _ => .inr rfl)
      intro f outer hf
      simp [Progress.step?, isEmpty_inside]
  | comment text =>
    cases hl
    exact follows_of_add h _ (fun _ => .inr rfl) (fun _ _ _ => rfl)
  | instruction target data =>
    cases hl
    exact follows_of_add h _ (fun _ => .inr rfl) (fun _ _ _ => rfl)

theorem follows_run {row : List Lexeme} (h : Mirrors nodes p)
    (hrow : row.foldlM Progress.step? p = some p') :
    Follows p nodes (fun q => row.foldlM Progress.step? q) p' := by
  induction row generalizing p nodes with
  | nil =>
    cases hrow
    exact ⟨nodes, h, fun _ _ _ => rfl⟩
  | cons l row ih =>
    rw [List.foldlM_cons, Option.bind_eq_bind, Option.bind_eq_some_iff] at hrow
    obtain ⟨next, hl, hrest⟩ := hrow
    obtain ⟨nodes', hmirrors, hstep⟩ := follows_step h hl
    obtain ⟨nodes'', hmirrors', hrun⟩ := ih hmirrors hrest
    refine ⟨nodes'', hmirrors', ?_⟩
    intro f outer hf
    have hnext := hstep f outer hf
    have hend := hrun f outer hf
    simp only [List.foldlM_cons, hnext, Option.bind_eq_bind, Option.bind_some, hend]

end

/-- A document adds its root, and beside it nothing that is an element. -/
theorem adds_of_root {row : List Lexeme} {node : Node} (h : rootOf? row = some node) :
    ∃ nodes, Adds row nodes ∧ childrenOf nodes = childrenOf [node] := by
  rw [rootOf?, Option.bind_eq_bind, Option.bind_eq_some_iff] at h
  obtain ⟨r, hrow, hroot⟩ := h
  simp only [Option.ite_none_right_eq_some] at hroot
  obtain ⟨hframes, hroot⟩ := hroot
  rw [List.isEmpty_iff] at hframes
  have hnone : Mirrors [] {} := ⟨rfl, fun _ => rfl⟩
  obtain ⟨nodes, hmirrors, hrun⟩ := follows_run hnone hrow
  refine ⟨nodes, ?_, ?_⟩
  · intro f outer hf
    have hend := hrun f outer hf
    rw [inside_closed rfl, inside_closed hframes] at hend
    exact hend
  · rw [hmirrors.children, hroot]
    rfl

/-- Where a tag stands at the start there is no declaration to be read. -/
theorem ofText_eq_ok {c : Char} {text : List Char} (hc : isNameStart c = true) {e : Element} :
    ofText ('<' :: c :: text) = .ok e ↔
      ∃ row node, lexemes? ('<' :: c :: text) = some row ∧ rootOf? row = some node ∧
        ofNode? node = some e := by
  have hdeclaration : "<?xml ".toList.isPrefixOf ('<' :: c :: text) = false := by
    have hask : c ≠ '?' := by
      intro heq
      rw [heq] at hc
      exact absurd hc (by decide)
    simp [List.isPrefixOf, Ne.symm hask]
  have hmark : dropMark ('<' :: c :: text) = '<' :: c :: text := rfl
  have hroot : root? ('<' :: c :: text) = (lexemes? ('<' :: c :: text)).bind rootOf? := by
    simp only [root?, hmark, hdeclaration]
    rfl
  rw [ofText, hmark, hroot]
  constructor
  · intro h
    split at h
    · next e' he =>
      cases h
      obtain ⟨node, hnode, he⟩ := Option.bind_eq_some_iff.mp he
      obtain ⟨row, hrow, hnode⟩ := Option.bind_eq_some_iff.mp hnode
      exact ⟨row, node, hrow, hnode, he⟩
    · cases h
  · rintro ⟨row, node, hrow, hnode, he⟩
    simp only [hrow, Option.bind_some, hnode, he]

/-! ## Elements that a text holds -/

/-- In an element without bindings the text adds these child elements, whatever
follows from the next `<` on. -/
def Holds (text : List Char) (elements : List Element) : Prop :=
  ∃ row nodes, (∀ rest, Lexed (text ++ '<' :: rest) row ('<' :: rest)) ∧ Adds row nodes ∧
    childrenOf nodes = elements

theorem Holds.append {text text' : List Char} {elements elements' : List Element}
    (h : Holds text elements) (h' : Holds text' elements')
    (hopen : ∀ c, text'.head? = some c → c = '<') :
    Holds (text ++ text') (elements ++ elements') := by
  obtain ⟨row, nodes, hlexed, hadds, hchildren⟩ := h
  obtain ⟨row', nodes', hlexed', hadds', hchildren'⟩ := h'
  refine ⟨row ++ row', nodes ++ nodes', ?_, hadds.append hadds', ?_⟩
  · intro rest
    rw [List.append_assoc]
    cases text' with
    | nil => exact (hlexed rest).trans (hlexed' rest)
    | cons c text' =>
      cases hopen c rfl
      exact (hlexed _).trans (hlexed' rest)
  · rw [childrenOf_append, hchildren, hchildren']

/-- The same with anything behind, a text as well: what ends in a tag or in a
comment is not gone beyond. -/
def HoldsAnywhere (text : List Char) (elements : List Element) : Prop :=
  ∃ row nodes, (∀ rest, Lexed (text ++ rest) row rest) ∧ Adds row nodes ∧
    childrenOf nodes = elements

theorem HoldsAnywhere.append {text text' : List Char} {elements elements' : List Element}
    (h : HoldsAnywhere text elements) (h' : Holds text' elements') :
    Holds (text ++ text') (elements ++ elements') := by
  obtain ⟨row, nodes, hlexed, hadds, hchildren⟩ := h
  obtain ⟨row', nodes', hlexed', hadds', hchildren'⟩ := h'
  refine ⟨row ++ row', nodes ++ nodes', ?_, hadds.append hadds', ?_⟩
  · intro rest
    rw [List.append_assoc]
    exact (hlexed _).trans (hlexed' rest)
  · rw [childrenOf_append, hchildren, hchildren']

theorem lexed_stretch {s : Stretch} (h : s.Exact) (rest : List Char) :
    Lexed (s.markup ++ '<' :: rest) (textRow s.markup) ('<' :: rest) := by
  obtain ⟨hallowed, hless, hgreater, -⟩ := all_harmless h.harmless
  exact lexed_text hallowed hless hgreater rest

theorem holds_stretch {s : Stretch} (h : s.Exact) : Holds s.markup [] := by
  obtain ⟨nodes, hadds, hchildren, -⟩ := adds_stretch h
  exact ⟨_, nodes, lexed_stretch h, hadds, hchildren⟩

theorem holds_comment {body : List Char} (h : IsComment body) :
    HoldsAnywhere (commentMarkup body) [] :=
  ⟨_, _, lexed_comment h, adds_comment body, rfl⟩

theorem holds_element {name : List Char} (hname : IsName name)
    {attributes : List (List Char × List Letter)} (h : IsGiven attributes) {inner : List Char}
    {elements : List Element} (hinner : Holds inner elements) :
    ∃ content, HoldsAnywhere (elementMarkup name attributes inner)
      [⟨String.ofList name, valued attributes, elements, content⟩] := by
  obtain ⟨row, nodes, hlexed, hadds, rfl⟩ := hinner
  exact ⟨_, _, _, lexed_element hname h hlexed, adds_element h hadds, rfl⟩

def tagMarkup (name : List Letter) (text : Stretch) : List Char :=
  "<Tag name=\"".toList ++ lettersMarkup name ++ "\">".toList ++ text.markup ++ "</Tag>".toList

theorem tagMarkup_eq (name : List Letter) (text : Stretch) :
    tagMarkup name text = elementMarkup "Tag".toList [("name".toList, name)] text.markup := by
  have hstart : "<Tag name=\"".toList =
      '<' :: ("Tag".toList ++ ' ' :: ("name".toList ++ ['=', '"'])) := rfl
  have hend : "\">".toList = ['"', '>'] := rfl
  have hclose : "</Tag>".toList = '<' :: '/' :: ("Tag".toList ++ ['>']) := rfl
  unfold tagMarkup
  rw [hstart, hend, hclose]
  simp only [elementMarkup, startMarkup, closeMarkup, given, attributeMarkup, List.map_cons,
    List.map_nil, List.flatMap_cons, List.flatMap_nil, List.append_assoc, List.cons_append,
    List.nil_append]

theorem holds_tag {name : List Letter} {text : Stretch} (hname : ∀ l ∈ name, l.Exact)
    (h : text.Exact) (htrim : Text.trim (lettersText text.letters) = lettersText text.letters) :
    HoldsAnywhere (tagMarkup name text)
      [⟨"Tag", [("name", String.ofList (lettersText name))], [],
        String.ofList (lettersText text.letters)⟩] := by
  have hgiven : IsGiven [("name".toList, name)] := by
    refine ⟨?_, ?_, List.nodup_singleton _⟩
    · intro a ha
      rw [List.mem_singleton.mp ha]
      exact (by decide : IsName "name".toList ∧ "name".toList ≠ "xmlns".toList)
    · intro a ha
      rw [List.mem_singleton.mp ha]
      exact hname
  obtain ⟨nodes, hadds, hchildren, hdirect⟩ := adds_stretch h
  have hrow : Adds (elementRow "Tag".toList [("name".toList, name)] (textRow text.markup))
      [.element (String.ofList "Tag".toList) (valued [("name".toList, name)]) nodes] :=
    adds_element hgiven hadds
  refine ⟨_, _, ?_, hrow, ?_⟩
  · intro rest
    rw [tagMarkup_eq]
    exact lexed_element (by decide) hgiven (lexed_stretch h) rest
  · simp only [childrenOf, ofNode?, hchildren, hdirect]
    rw [h.trim_contentText htrim]
    rfl

theorem holds_document {c : Char} {text : List Char} (hc : isNameStart c = true) {e : Element}
    (h : ofText ('<' :: c :: text) = .ok e) : Holds ('<' :: c :: text) [e] := by
  obtain ⟨row, node, hrow, hnode, he⟩ := (ofText_eq_ok hc).mp h
  obtain ⟨nodes, hadds, hchildren⟩ := adds_of_root hnode
  refine ⟨row, nodes, fun rest => lexed_append rest hrow, hadds, ?_⟩
  rw [hchildren, childrenOf, he]
  rfl

/-- The element that is read where the text stands in a root. -/
theorem ofText_element {name : List Char} (hname : IsName name)
    {attributes : List (List Char × List Letter)} (h : IsGiven attributes) {inner : List Char}
    {elements : List Element} (hinner : Holds inner elements) :
    ∃ content, ofText (elementMarkup name attributes inner) =
      .ok ⟨String.ofList name, valued attributes, elements, content⟩ := by
  obtain ⟨row, nodes, hlexed, hadds, hchildren⟩ := hinner
  have hlexemes : lexemes? (elementMarkup name attributes inner) =
      some (elementRow name attributes row) := by
    apply lexemes?_of_lexed
    have hread := lexed_element hname h hlexed []
    rwa [List.append_nil] at hread
  have hroot : rootOf? (elementRow name attributes row) =
      some (.element (String.ofList name) (valued attributes) nodes) :=
    rootOf?_element h hadds
  obtain ⟨c, tail, rfl, hc⟩ := exists_of_startsName hname.starts
  refine ⟨String.ofList (Text.trim (directText nodes)),
    (ofText_eq_ok hc).mpr ⟨_, _, hlexemes, hroot, ?_⟩⟩
  rw [ofNode?, hchildren]

/-! ## Mixed content -/

/-- Text, or text with an element or a comment behind it and more to follow. -/
inductive Mixed where
  | text (s : Stretch)
  | element (s : Stretch) (name : List Char) (attributes : List (List Char × List Letter))
      (inner rest : Mixed)
  | comment (s : Stretch) (body : List Char) (rest : Mixed)

namespace Mixed

def markup : Mixed → List Char
  | text s => s.markup
  | element s name attributes inner rest =>
    s.markup ++ (elementMarkup name attributes inner.markup ++ rest.markup)
  | comment s body rest => s.markup ++ (commentMarkup body ++ rest.markup)

/-- Texts, names, attributes and comments are what they should be, at any depth. -/
def Exact : Mixed → Prop
  | text s => s.Exact
  | element s name attributes inner rest =>
    s.Exact ∧ IsName name ∧ IsGiven attributes ∧ inner.Exact ∧ rest.Exact
  | comment s body rest => s.Exact ∧ IsComment body ∧ rest.Exact

def decExact : (m : Mixed) → Decidable m.Exact
  | text s => inferInstanceAs (Decidable s.Exact)
  | element _ _ _ inner rest =>
    have := inner.decExact
    have := rest.decExact
    inferInstanceAs (Decidable (_ ∧ _ ∧ _ ∧ _ ∧ _))
  | comment _ _ rest =>
    have := rest.decExact
    inferInstanceAs (Decidable (_ ∧ _ ∧ _))

instance : DecidablePred Exact := decExact

end Mixed

theorem head?_elementMarkup (name : List Char) (attributes : List (List Char × List Letter))
    (inner rest : List Char) :
    (elementMarkup name attributes inner ++ rest).head? = some '<' := rfl

theorem head?_commentMarkup (body rest : List Char) :
    (commentMarkup body ++ rest).head? = some '<' := rfl

/-- What stands behind a text begins with a tag or a comment. -/
theorem holds_behind {s : Stretch} (h : s.Exact) {rest : List Char} {elements : List Element}
    (hrest : Holds rest elements) (hopen : rest.head? = some '<') :
    Holds (s.markup ++ rest) elements := by
  apply (holds_stretch h).append hrest
  intro c hc
  rw [hopen] at hc
  exact (Option.some.inj hc).symm

theorem Mixed.exists_holds {m : Mixed} (h : m.Exact) : ∃ elements, Holds m.markup elements := by
  induction m with
  | text s => exact ⟨[], holds_stretch h⟩
  | element s name attributes inner rest ihinner ihrest =>
    obtain ⟨hs, hname, hgiven, hinner, hrest⟩ := h
    obtain ⟨elements, helements⟩ := ihinner hinner
    obtain ⟨elements', helements'⟩ := ihrest hrest
    obtain ⟨content, helement⟩ := holds_element hname hgiven helements
    exact ⟨_, holds_behind hs (helement.append helements') (head?_elementMarkup ..)⟩
  | comment s body rest ih =>
    obtain ⟨hs, hbody, hrest⟩ := h
    obtain ⟨elements, helements⟩ := ih hrest
    exact ⟨_, holds_behind hs ((holds_comment hbody).append helements) (head?_commentMarkup ..)⟩

end Phrasebook.Markup
