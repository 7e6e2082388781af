import Phrasebook.Markup.Lexeme

/-
  A document as a tree.

  Elements hold text, comments, processing instructions and elements in document
  order. Names are local names, and text is what the markup stands for.

  `xmlns:p="uri"` binds a prefix for an element and all inside it. The bindings are
  used to check names only: a prefix has to be bound, and no element has two
  attributes of one namespace and one local name.

  There is one root element, with nothing beside it but white space, comments and
  processing instructions; every end tag closes the element opened last. An XML
  declaration may stand at the very start, behind a byte order mark.
-/

namespace Phrasebook.Markup

/-! ## Nodes -/

inductive Node where
  | element (name : String) (attributes : List (String × String)) (content : List Node)
  | text (text : String)
  | comment (text : String)
  | instruction (target data : String)
  deriving Repr

/-- The text of a text node, nothing for any other. -/
def Node.ownText : Node → List Char
  | .text s => s.toList
  | _ => []

def directText (content : List Node) : List Char := content.flatMap Node.ownText

/-! ## Namespaces -/

/-- The name of a namespace that the standard itself gives out. -/
def standardUri (path : String) : String := "http" ++ "://www.w3.org/" ++ path

def xmlUri : String := standardUri "XML/1998/namespace"

/-- The namespace of bindings, which nothing else may use. -/
def xmlnsUri : String := standardUri "2000/xmlns/"

/-- The bindings in force, innermost first. -/
abbrev Bindings := List (List Char × String)

/-- What the attributes of a start tag say: bindings and attributes proper, the
latest first. -/
structure Declared where
  bindings : Bindings := []
  attributes : List (QName × String) := []

/-- A binding made with `xmlns:base`. The prefix `xml` has its own namespace and
no other prefix has it; no prefix is bound twice by one tag. -/
def Declared.bind? (d : Declared) (base : List Char) (uri : String) : Option Declared :=
  if uri = xmlnsUri then none
  else if base = "xml".toList then if uri = xmlUri then some d else none
  else if uri = xmlUri then none
  else if (d.bindings.lookup base).isSome then none
  else some { d with bindings := (base, uri) :: d.bindings }

/-- One more attribute of the tag. A default namespace is checked and has no
further effect. -/
def Declared.add? (d : Declared) (written : QName × List Char) : Option Declared := do
  let (name, markup) := written
  let value := String.ofList (attributeText (← glyphs? markup))
  if name.space = "xmlns".toList then d.bind? name.base value
  else if name.base = "xmlns".toList then
    if value = xmlUri ∨ value = xmlnsUri then none else some d
  else some { d with attributes := (name, value) :: d.attributes }

/-- The namespace of an attribute: none without a prefix. -/
def namespaceOf? (bindings : Bindings) (name : QName) : Option (Option String) :=
  if name.space = "xml".toList then some (some xmlUri)
  else if name.space = [] then some none
  else (bindings.lookup name.space).map some

/-- A tag with its bindings in force and its attributes under local names. -/
structure Opened where
  name : QName
  bindings : Bindings
  attributes : List (String × String)

/-- What a start tag means where the bindings `outer` are in force. -/
def Opened.ofTag? (outer : Bindings) (name : QName) (attributes : List (QName × List Char)) :
    Option Opened := do
  let declared ← attributes.foldlM Declared.add? {}
  let bindings := declared.bindings ++ outer
  let own := declared.attributes.reverse
  let keys ← own.mapM fun (q, _) => (namespaceOf? bindings q).map fun uri => (uri, q.base)
  if name.space = "xmlns".toList then none
  else if name.space ≠ [] ∧ (bindings.lookup name.space).isNone then none
  else if keys.Nodup then
    some ⟨name, bindings, own.map fun (q, value) => (String.ofList q.base, value)⟩
  else none

/-! ## Documents -/

/-- An element whose end tag is still to come; its content is newest first. -/
structure Frame where
  tag : Opened
  content : List Node := []

def Frame.node (f : Frame) : Node :=
  .element (String.ofList f.tag.name.base) f.tag.attributes f.content.reverse

/-- How far a document is read: the open elements, innermost first, and the root
once it is closed. -/
structure Progress where
  frames : List Frame := []
  root : Option Node := none

/-- A node added where reading stands; outside the root only an element stays. -/
def Progress.add (r : Progress) (node : Node) : Progress :=
  match r.frames, node with
  | f :: outer, _ => { r with frames := { f with content := node :: f.content } :: outer }
  | [], .element .. => { r with root := some node }
  | [], _ => r

def Progress.bindings (r : Progress) : Bindings :=
  match r.frames with
  | [] => []
  | f :: _ => f.tag.bindings

def Progress.step? (r : Progress) : Lexeme → Option Progress
  | .start name attributes closed =>
    if r.frames.isEmpty ∧ r.root.isSome then none
    else (Opened.ofTag? r.bindings name attributes).map fun tag =>
      if closed then r.add (Frame.node { tag })
      else { r with frames := { tag } :: r.frames }
  | .close name =>
    match r.frames with
    | [] => none
    | f :: outer =>
      if f.tag.name = name then some ({ r with frames := outer }.add f.node) else none
  | .text markup =>
    if r.frames.isEmpty then if markup.all isSpace then some r else none
    else (glyphs? markup).map fun glyphs => r.add (.text (String.ofList (contentText glyphs)))
  | .verbatim text =>
    if r.frames.isEmpty then none
    else some (r.add (.text (String.ofList (contentText (text.map .literal)))))
  | .comment text => some (r.add (.comment (String.ofList text)))
  | .instruction target data =>
    some (r.add (.instruction (String.ofList target) (String.ofList data)))

def rootOf? (row : List Lexeme) : Option Node := do
  let r ← row.foldlM Progress.step? {}
  if r.frames.isEmpty then r.root else none

/-- White space, unless the declaration ends here. -/
def declarationSpace? (text : List Char) : Option (List Char) :=
  match text with
  | [] => some []
  | c :: _ => if isSpace c || "?>".toList.isPrefixOf text then some (skipSpace text) else none

/-- An entry of the declaration that may be left out. -/
def declarationEntry? (word : String) (text : List Char) : Option (List Char) :=
  if word.toList.isPrefixOf text then (attribute? text).map Prod.snd else some text

/-- The text behind an XML declaration, of which `<?xml` has been read: a
version, then an encoding and a standalone entry if there are any. -/
def declaration? (text : List Char) : Option (List Char) := do
  let text ← declarationSpace? text
  if ¬ "version".toList.isPrefixOf text then none
  else
    let text ← declarationSpace? (← declarationEntry? "version" text)
    let text ←
      if "encoding".toList.isPrefixOf text then
        declarationSpace? (← declarationEntry? "encoding" text)
      else some text
    let text := skipSpace (← declarationEntry? "standalone" text)
    if "?>".toList.isPrefixOf text then some (text.drop 2) else none

def dropMark : List Char → List Char
  | '\uFEFF' :: text => text
  | text => text

def root? (text : List Char) : Option Node := do
  let text := dropMark text
  let opening := "<?xml ".toList
  let body ← if opening.isPrefixOf text then declaration? (text.drop 5) else some text
  rootOf? (← lexemes? body)

end Phrasebook.Markup
