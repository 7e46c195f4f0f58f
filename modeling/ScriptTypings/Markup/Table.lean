import ScriptTypings.Markup.Section

/-!
# Tables

`tableRows` lists the rows of a table, those of tables inside it left out, each as its cells.
-/

namespace ScriptTypings.Markup

def isCell (node : Node) : Bool :=
  node.hasTag "td" || node.hasTag "th"

mutual

/-- The rows at or below a node that belong to the table around it. -/
def rowsAt : Node → List Node
  | .element tag attributes children =>
    if tag = "table" then []
    else if tag = "tr" then .element tag attributes children :: rowsAmong children
    else rowsAmong children
  | _ => []

def rowsAmong : List Node → List Node
  | [] => []
  | node :: nodes => rowsAt node ++ rowsAmong nodes

end

/-- The rows of a table as lists of their cells; what is no table has none. -/
def tableRows (table : Node) : List (List Node) :=
  if table.hasTag "table" then
    (rowsAmong table.children).map fun row => row.children.filter isCell
  else []

/-- The first table among the elements of a section, or else the first one inside them. -/
def firstTable? (s : Section) : Option Node :=
  match s.elements.find? (Node.hasTag "table") with
  | some table => some table
  | none => s.elements.findSome? fun e => e.findBelow? (Node.hasTag "table")

end ScriptTypings.Markup
