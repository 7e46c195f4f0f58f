import ScriptTypings.NameMap
import ScriptTypings.Text.Blank

/-!
# Page trees

A page is a tree of elements, texts and comments. `Node.innerText` is the text of an element without
comments and without the texts that scripts, style sheets and the like keep to themselves;
`descendants` lists the elements below some nodes in document order, and `places` pairs each of them
with the nodes that follow it in its parent.
-/

namespace ScriptTypings.Markup

/-- Elements whose texts do not count as text of the elements around and below them. -/
def keepsText (tag : String) : Bool :=
  ["script", "style", "template", "rt", "rp"].contains tag

/-- What a text belongs to: the page, the nearest element that keeps its texts, or the name of a
document type. -/
inductive TextKind
  | plain
  | kept (tag : String)
  | documentType
  deriving DecidableEq

inductive Node
  | element (tag : String) (attributes : List (String × String)) (children : List Node)
  | text (content : String) (kind : TextKind)
  | comment (content : String)

namespace Node

instance : Inhabited Node := ⟨text "" .plain⟩

def tag? : Node → Option String
  | element tag _ _ => some tag
  | _ => none

def isElement : Node → Bool
  | element _ _ _ => true
  | _ => false

def isComment : Node → Bool
  | comment _ => true
  | _ => false

def hasTag (tag : String) (node : Node) : Bool :=
  node.tag? = some tag

def children : Node → List Node
  | element _ _ children => children
  | _ => []

def attribute? (name : String) : Node → Option String
  | element _ attributes _ => NameMap.find? name attributes
  | _ => none

/-- The attribute's value, if the element has it and it is not empty. -/
def filledAttribute? (name : String) (node : Node) : Option String :=
  (node.attribute? name).filter (· ≠ "")

/-- The names in the `class` attribute. -/
def classNames (node : Node) : List (List Char) :=
  let value := (node.attribute? "class").getD ""
  (value.toList.splitBy fun a b => Text.isBlank a = Text.isBlank b).filter fun part =>
    !part.all Text.isBlank

/-- The elements among the children. -/
def elements (node : Node) : List Node :=
  node.children.filter isElement

mutual

/-- The texts of one kind in a node, put together. -/
def textOfKind (kind : TextKind) : Node → String
  | element _ _ children => textsOfKind kind children
  | text content k => if k = kind then content else ""
  | comment _ => ""

def textsOfKind (kind : TextKind) : List Node → String
  | [] => ""
  | node :: nodes => node.textOfKind kind ++ textsOfKind kind nodes

end

/-- The text inside an element: what belongs to the page, or for an element that keeps its texts
what belongs to elements of its tag. -/
def innerText : Node → String
  | element tag _ children => textsOfKind (if keepsText tag then .kept tag else .plain) children
  | _ => ""

mutual

/-- The elements below a node in document order, each with the nodes that follow it. -/
def placesBelow : Node → List (Node × List Node)
  | element _ _ children => places children
  | _ => []

/-- The elements among some siblings and below them in document order, each with the nodes that
follow it in its parent. -/
def places : List Node → List (Node × List Node)
  | [] => []
  | node :: rest =>
    (if node.isElement then [(node, rest)] else []) ++ placesBelow node ++ places rest

end

/-- The elements below a node in document order. -/
def descendants (node : Node) : List Node :=
  (placesBelow node).map Prod.fst

/-- The first element below a node that satisfies a test. -/
def findBelow? (node : Node) (test : Node → Bool) : Option Node :=
  node.descendants.find? test

/-- The elements with one of the tags below a node. -/
def allBelow (node : Node) (tags : List String) : List Node :=
  node.descendants.filter fun e => tags.any fun tag => e.hasTag tag

end Node

/-- The first element among some nodes. -/
def firstElement? (nodes : List Node) : Option Node :=
  nodes.find? Node.isElement

end ScriptTypings.Markup
