import Phrasebook.Markup.Document
import Phrasebook.Text.Basic
import Phrasebook.Text.Utf8

/-
  Elements: what is read out of a document. Comments and processing
  instructions leave no trace, the direct text of an element is joined and
  trimmed, and its child elements keep their order.

  Correspondence:
    `Element`        ↔ `Element`; `attribute`, `children_named` ↔ `Element.attribute?`,
      `Element.named`
    `from_node`      ↔ `Element.ofNode?`
    `parse`, `from_bytes` ↔ `Element.ofText`, `Element.ofBytes`
    `MarkupError`    ↔ `Fault`
-/

namespace Phrasebook.Markup

/-- An element with its attributes, child elements and direct text. -/
structure Element where
  name : String
  attributes : List (String × String)
  children : List Element
  content : String
  deriving Repr

namespace Element

mutual
/-- Elements are compared part by part, the order of attributes included. -/
def decEq : (a b : Element) → Decidable (a = b)
  | ⟨n, as, cs, t⟩, ⟨n', as', cs', t'⟩ =>
    if h : n = n' ∧ as = as' ∧ t = t' then
      match decEqList cs cs' with
      | .isTrue hc => .isTrue (by rw [h.1, h.2.1, h.2.2, hc])
      | .isFalse hc => .isFalse (by intro e; cases e; exact hc rfl)
    else .isFalse (by intro e; cases e; exact h ⟨rfl, rfl, rfl⟩)

def decEqList : (a b : List Element) → Decidable (a = b)
  | [], [] => .isTrue rfl
  | [], _ :: _ => .isFalse nofun
  | _ :: _, [] => .isFalse nofun
  | a :: as, b :: bs =>
    match decEq a b with
    | .isFalse h => .isFalse (by intro e; cases e; exact h rfl)
    | .isTrue h =>
      match decEqList as bs with
      | .isTrue hs => .isTrue (by rw [h, hs])
      | .isFalse hs => .isFalse (by intro e; cases e; exact hs rfl)
end

instance : DecidableEq Element := decEq

mutual
def ofNode? : Node → Option Element
  | .element name attributes content =>
    some ⟨name, attributes, childrenOf content,
      String.ofList (Text.trim (directText content))⟩
  | _ => none

def childrenOf : List Node → List Element
  | [] => []
  | node :: rest =>
    match ofNode? node with
    | some e => e :: childrenOf rest
    | none => childrenOf rest
end

/-- The value of the first attribute with a name. -/
def attribute? (e : Element) (name : String) : Option String := e.attributes.lookup name

/-- The direct children with a name, in document order. -/
def named (e : Element) (name : String) : List Element :=
  e.children.filter (·.name == name)

end Element

inductive Fault where
  | notText (fault : Utf8.Fault)
  | illFormed
  deriving DecidableEq, Repr

def Fault.message : Fault → String
  | .notText fault => "invalid UTF-8: " ++ fault.message
  | .illFormed => "XML syntax error"

/-- The root element of a document. One byte order mark at its start is dropped
here and another one by the reader. -/
def Element.ofText (text : List Char) : Except Fault Element :=
  match (root? (dropMark text)).bind Element.ofNode? with
  | some e => .ok e
  | none => .error .illFormed

def Element.ofBytes (bytes : List UInt8) : Except Fault Element :=
  match Utf8.decode bytes with
  | .ok text => Element.ofText text
  | .error fault => .error (.notText fault)

end Phrasebook.Markup
