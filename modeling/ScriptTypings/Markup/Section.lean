import ScriptTypings.Markup.Node

/-!
# Sections of a page

A heading opens a section that runs up to the next heading of the same or a higher level; deeper
headings inside it open its subsections. `Section.ofNodes` cuts a list of siblings in this way.
-/

namespace ScriptTypings.Markup

/-- Nodes in front of the first subsection and between them, and the subsections by title. -/
inductive Section
  | mk (nodes : List Node) (subsections : List (String × Section))

namespace Section

def empty : Section := mk [] []

def nodes : Section → List Node
  | mk nodes _ => nodes

def subsections : Section → NameMap Section
  | mk _ subsections => subsections

def elements (s : Section) : List Node :=
  s.nodes.filter Node.isElement

def addNode (s : Section) (node : Node) : Section :=
  mk (s.nodes ++ [node]) s.subsections

/-- Adds a subsection; one with the same title is replaced where it stands. -/
def addSubsection (s : Section) (title : String) (sub : Section) : Section :=
  mk s.nodes (NameMap.put title sub s.subsections)

/-- The first subsection whose title begins with the given text. -/
def subsection? (lead : String) (s : Section) : Option Section :=
  (List.find? (fun entry => lead.toList.isPrefixOf entry.1.toList) s.subsections).map Prod.snd

end Section

/-- The level of a heading element, from 1 to 6. -/
def headingLevel? (node : Node) : Option Nat :=
  match node.tag? with
  | some "h1" => some 1
  | some "h2" => some 2
  | some "h3" => some 3
  | some "h4" => some 4
  | some "h5" => some 5
  | some "h6" => some 6
  | _ => none

/-- The title that a heading shows. -/
def titleOf (heading : Node) : String :=
  Text.trimmed heading.innerText

/-- Reads siblings into a section of the given level, up to a heading of that level or above, and
answers the nodes from that heading on. -/
def collect (level : Nat) (found : Section) :
    (nodes : List Node) → Section × { rest : List Node // rest.length ≤ nodes.length }
  | [] => (found, ⟨[], Nat.le_refl _⟩)
  | node :: nodes =>
    match headingLevel? node with
    | none =>
      let (s, ⟨rest, h⟩) := collect level (found.addNode node) nodes
      (s, ⟨rest, Nat.le_succ_of_le h⟩)
    | some depth =>
      if depth ≤ level then (found, ⟨node :: nodes, Nat.le_refl _⟩)
      else
        let (sub, ⟨rest, h⟩) := collect depth .empty nodes
        let (s, ⟨rest', h'⟩) := collect level (found.addSubsection (titleOf node) sub) rest
        (s, ⟨rest', Nat.le_succ_of_le (Nat.le_trans h' h)⟩)
termination_by nodes => nodes.length
decreasing_by
  · exact Nat.lt_succ_self _
  · exact Nat.lt_succ_self _
  · exact Nat.lt_succ_of_le h

/-- The section that the siblings form below a base level. -/
def Section.ofNodes (base : Nat) (nodes : List Node) : Section :=
  (collect base .empty nodes).1

end ScriptTypings.Markup
