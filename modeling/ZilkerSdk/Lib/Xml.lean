import Mathlib.Algebra.Group.Nat.Defs

/-!
# Trees of XML nodes

The trees that an XML library builds and parses, and what is read of them: the elements among the
children of a node, the attributes and the text.  A tree that is printed with indentation and parsed
again has blank texts between its elements; what is read of it is the same.
-/

namespace ZilkerSdk.Lib

inductive XmlNode where
  | element (name : List Char) (attributes : List (List Char × List Char))
      (children : List XmlNode)
  | text (content : List Char)
  | comment (content : List Char)

namespace XmlNode

def isElement : XmlNode → Bool
  | element .. => true
  | _ => false

def isText : XmlNode → Bool
  | text _ => true
  | _ => false

def name : XmlNode → List Char
  | element name _ _ => name
  | _ => []

def attributes : XmlNode → List (List Char × List Char)
  | element _ attributes _ => attributes
  | _ => []

def children : XmlNode → List XmlNode
  | element _ _ children => children
  | _ => []

/-- The value of an attribute. -/
def getProp (node : XmlNode) (key : List Char) : Option (List Char) :=
  (node.attributes.find? fun item => item.1 = key).map Prod.snd

def childElements (node : XmlNode) : List XmlNode := node.children.filter isElement

mutual

/-- All the text of a node, in order. -/
def content : XmlNode → List Char
  | element _ _ children => contents children
  | text content => content
  | comment _ => []

def contents : List XmlNode → List Char
  | [] => []
  | node :: nodes => node.content ++ contents nodes

end

/-! ## Formatted output -/

section

variable (blank : Nat → List Char)

mutual

/-- The tree as it is parsed again after it was printed with indentation: in an element without
text, each child stands on a line of its own. -/
def formatted (depth : Nat) : XmlNode → XmlNode
  | element name attributes children =>
    if children.any isText || children.isEmpty then element name attributes children
    else element name attributes (formattedLines depth children)
  | text content => text content
  | comment content => comment content

def formattedLines (depth : Nat) : List XmlNode → List XmlNode
  | [] => [text (blank depth)]
  | node :: nodes =>
    text (blank (depth + 1)) :: formatted (depth + 1) node :: formattedLines depth nodes

end

variable (depth : Nat)

@[simp] theorem name_formatted (node : XmlNode) :
    (formatted blank depth node).name = node.name := by
  cases node with
  | element name attributes children =>
    unfold formatted
    split <;> rfl
  | text | comment => rfl

@[simp] theorem getProp_formatted (node : XmlNode) (key : List Char) :
    (formatted blank depth node).getProp key = node.getProp key := by
  cases node with
  | element name attributes children =>
    unfold formatted
    split <;> rfl
  | text | comment => rfl

theorem isElement_formatted (node : XmlNode) :
    (formatted blank depth node).isElement = node.isElement := by
  cases node with
  | element name attributes children =>
    unfold formatted
    split <;> rfl
  | text | comment => rfl

theorem filter_formattedLines (nodes : List XmlNode) :
    (formattedLines blank depth nodes).filter isElement =
      (nodes.filter isElement).map (formatted blank (depth + 1)) := by
  induction nodes with
  | nil => rfl
  | cons node nodes ih =>
    rw [formattedLines, List.filter_cons_of_neg (by simp [isElement]), List.filter_cons,
      isElement_formatted, ih, List.filter_cons]
    split <;> rfl

/-- Between elements, the blank texts are not seen. -/
theorem childElements_formatted {node : XmlNode} (h : node.children.any isText = false) :
    (formatted blank depth node).childElements =
      node.childElements.map (formatted blank (depth + 1)) := by
  cases node with
  | element name attributes children =>
    have hnone : children.any isText = false := h
    unfold formatted
    cases children with
    | nil => rfl
    | cons child children =>
      rw [hnone, List.isEmpty_cons, Bool.or_false, if_neg Bool.false_ne_true]
      exact filter_formattedLines blank depth (child :: children)
  | text | comment => rfl

end

/-! ## Elements that hold a text -/

/-- An element with a text, or without children if there is none. -/
def leaf (name text : List Char) : XmlNode :=
  element name [] (if text = [] then [] else [.text text])

@[simp] theorem name_leaf (name text : List Char) : (leaf name text).name = name := rfl

@[simp] theorem isText_leaf (name text : List Char) : (leaf name text).isText = false := rfl

@[simp] theorem content_leaf (name text : List Char) : (leaf name text).content = text := by
  unfold leaf content
  split
  · rename_i h
    rw [h, contents]
  · simp [contents, content]

/-- The text of an element is printed as it is. -/
@[simp] theorem formatted_leaf (blank : Nat → List Char) (depth : Nat) (name text : List Char) :
    formatted blank depth (leaf name text) = leaf name text := by
  unfold leaf formatted
  split <;> simp [isText]

end XmlNode

end ZilkerSdk.Lib
