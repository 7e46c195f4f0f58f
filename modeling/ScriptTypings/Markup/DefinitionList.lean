import ScriptTypings.Markup.Node

/-!
# Definition lists

A definition list alternates terms with their definitions. `definitions` gathers the definitions of
each term; a term that is repeated starts again without any.
-/

namespace ScriptTypings.Markup

/-- Why a definition list cannot be read. -/
inductive DefinitionListError
  | strayText
  | strayElement (tag : String)
  | definitionFirst
  deriving DecidableEq, Repr

/-- The definitions of each term, and the term that the next definition belongs to. -/
structure Definitions where
  found : List (String × List Node) := []
  term : Option String := none

/-- Reads one child of a definition list. -/
def Definitions.step (d : Definitions) : Node → Except DefinitionListError Definitions
  | .comment _ => .ok d
  | .text content _ => if content.toList.all Text.isBlank then .ok d else .error .strayText
  | .element tag attributes children =>
    if tag = "dt" then
      let term := Text.trimmed (Node.element tag attributes children).innerText
      .ok ⟨NameMap.put term [] d.found, some term⟩
    else if tag = "dd" then
      match d.term with
      | none => .error .definitionFirst
      | some term =>
        let before := (NameMap.find? term d.found).getD []
        let definition := Node.element tag attributes children
        .ok { d with found := NameMap.put term (before ++ [definition]) d.found }
    else .error (.strayElement tag)

/-- The definitions of each term of a list, terms in the order of their first occurrence. -/
def definitions (list : Node) : Except DefinitionListError (NameMap (List Node)) := do
  let d ← list.children.foldlM Definitions.step {}
  return d.found

end ScriptTypings.Markup
