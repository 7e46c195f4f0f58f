import ScriptTypings.Page.Basic
import ScriptTypings.Page.EventSyntax
import ScriptTypings.Page.Inheritance
import ScriptTypings.Page.Title

/-!
# Entries of a page

Each kind of page has its own template. `Page.entries` reads the entries of a page of a given kind,
each with its key: the lower-case form of its identifier.
-/

namespace ScriptTypings.Page

open Text Markup

/-- The keyed entries that a page gives. -/
abbrev Entries := List (String × Entry)

/-- The one entry of a page under its own key. -/
def own (page : Page) (description : String) (content : Content) : Entries :=
  [(page.key, { identifier := page.identifier, description, content })]

def classEntries (page : Page) (description : String) (isAttribute : Bool) : Reading Entries := do
  let bases := Inheritance.bases (← page.snippets)
  return page.own description (.cls (bases.map Json.text) isAttribute)

/-- The words of a cell that name a member: first for other languages, then for scripts. -/
def emphasised (cell : Node) : List Node :=
  cell.allBelow ["strong", "b"]

/-- The entry of an enumeration member; a row without a script name has none. -/
def enumerationMember (page : Page) (row : List Node) : Option (String × Entry) :=
  match row.head?.map emphasised with
  | some (_ :: scriptName :: _) =>
    let name := trimmed scriptName.innerText
    let description := (row[2]?.map fun cell => inlined cell.innerText).getD ""
    some (page.key ++ "." ++ lowered name,
      { identifier := Identifier.member page.identifier name, description,
        content := .property "Number" })
  | _ => none

def enumerationEntries (page : Page) (description : String) : Reading Entries :=
  match (page.sections.subsection? "Members").bind firstTable? with
  | none => fail .enumerationFormat
  | some table =>
    .ok (page.own description .enumeration ++ (dataRows table).filterMap page.enumerationMember)

/-- The members of one category, if its table exists. -/
def categoryMembers (members : Markup.Section) (title : String) : Reading (Option (List Json)) :=
  match (members.subsection? title).bind firstTable? with
  | none => .ok none
  | some table => do return some (← linkedMembers table)

/-- The listing got from one sub-headed table for each category; none if there is no such table. -/
def categorizedListing (members : Markup.Section) : Reading (Option NamespaceListing) := do
  let structures ← categoryMembers members "Structures"
  let delegates ← categoryMembers members "Delegates"
  let interfaces ← categoryMembers members "Interfaces"
  if structures.isNone && delegates.isNone && interfaces.isNone then return none
  return some
    { structures := structures.getD [], delegates := delegates.getD [],
      interfaces := interfaces.getD [] }

/-- Adds a row of a combined table: the last word of its label tells the category. -/
def addLabelled (listing : NamespaceListing) (row : List Node × String) : NamespaceListing :=
  let label := lower (oneLine ((row.1.head?.map Node.innerText).getD "").toList)
  if endsWith label " structure".toList then
    { listing with structures := listing.structures ++ [.text row.2] }
  else if endsWith label " delegate".toList then
    { listing with delegates := listing.delegates ++ [.text row.2] }
  else if endsWith label " interface".toList then
    { listing with interfaces := listing.interfaces ++ [.text row.2] }
  else listing

/-- The listing got from one table for all members. -/
def combinedListing (table : Node) : Reading NamespaceListing := do
  let rows ← (dataRows table).mapM fun row => do return (row, ← rowLink row)
  return rows.foldl addLabelled {}

/-- The section that may hold the combined table. -/
def combinedSection? (page : Page) : Option Markup.Section :=
  match page.sections.subsection? "In this section", page.sections.subsection? "Members" with
  | some combined, _ => some combined
  | none, some members => some ((members.subsection? "In this section").getD members)
  | none, none => none

def namespaceListing (page : Page) : Reading NamespaceListing := do
  let categorized ←
    match page.sections.subsection? "Members" with
    | some members => categorizedListing members
    | none => pure none
  match categorized with
  | some listing => return listing
  | none =>
    -- otherwise one table lists the members of all kinds
    match page.combinedSection?.bind firstTable? with
    | some table => combinedListing table
    | none => return {}

def namespaceEntries (page : Page) (description : String) : Reading Entries := do
  return page.own description (.space (← page.namespaceListing))

def propertyEntries (page : Page) (description : String) : Reading Entries :=
  match page.elementAfter? "Property value" with
  | none => fail .missingValue
  | some container => do return page.own description (.property (← page.typeIn container))

/-- The type parameters in a title that ends with the given word. -/
def titleParameters (page : Page) (ending : String) : List Json :=
  (TypeText.splitGeneric (page.title.toList.take (page.title.length - ending.length))).2.map
    fun parameter => .text (.ofList parameter)

def delegateEntries (page : Page) (description : String) : Reading Entries := do
  let parameters ← page.parameters
  return page.own description
    (.delegate { parameters, typeParameters := page.titleParameters " delegate" })

/-- The identifier of a class's constructor: the mark at its end is replaced by a plain word. -/
def constructorIdentifier (identifier : String) : Reading String :=
  match splitAt? ".#ctor".toList (lower identifier.toList) with
  | some (owner, _) =>
    .ok (Identifier.member (.ofList (identifier.toList.take owner.length)) "constructor")
  | none => fail .missingConstructorMark

def constructorEntries (page : Page) (description : String) : Reading Entries := do
  let identifier ← constructorIdentifier page.identifier
  let parameters ← page.parameters
  let snippets ← page.snippets
  let signature : Signature :=
    { description, parameters, returned := .newInstance,
      snippets := NameMap.mapValues .text snippets }
  return [(lowered identifier, { identifier, content := .function [signature] })]

/-- What a function gives back; a heading without a type says that the type is not known. -/
def returnValue (page : Page) : Reading Returned := do
  match page.following? "Return value" with
  | none => return .nothing
  | some nodes =>
    match (nodes.filter Node.isElement) with
    | [] => return .typed "unknown" ""
    | element :: rest =>
      -- the type stands in the paragraph next to the heading, or nowhere
      if !element.hasTag "p" then return .typed "unknown" ""
      else if !TypeSpelling.typeLead.isPrefixOf (trimStart element.innerText.toList) then
        return .typed "unknown" (inlined element.innerText)
      else
        let typeName ← page.typeIn element
        let description :=
          match rest.head? with
          | some next => if next.hasTag "p" then inlined next.innerText else ""
          | none => ""
        return .typed typeName description

def methodEntries (page : Page) (description : String) : Reading Entries := do
  let snippets ← page.snippets
  let parameters ← page.parameters
  let returned ← page.returnValue
  let signature : Signature :=
    { description, parameters, returned, snippets := NameMap.mapValues .text snippets }
  return [(page.key, { identifier := page.identifier, content := .function [signature] })]

/-- The identifier of the property that holds an event's handler. -/
def handlerIdentifier (identifier : String) : Reading String :=
  match Identifier.mapLast? (fun name => 'o' :: 'n' :: name) identifier with
  | some handler => .ok handler
  | none => fail (.undottedIdentifier identifier)

/-- The cell that tells an event's type: the second of the only row of the table. -/
def eventTypeCell (page : Page) : Reading Node :=
  match page.elementAfter? "Event information" with
  | none => fail .missingEventTable
  | some table =>
    if table.hasTag "table" then
      match tableRows table with
      | [_ :: cell :: _] => .ok cell
      | _ => fail .eventTableShape
    else fail .missingEventTable

def eventEntries (page : Page) (description : String) : Reading Entries := do
  match NameMap.find? page.language (← page.snippets) with
  | none => fail (.missingSnippet page.language)
  | some code =>
    if EventSyntax.isComplete code then
      let cell ← page.eventTypeCell
      match page.spelling? (← check (TypeSpelling.parse cell true)) with
      | none => fail (.missingEventType page.language)
      | some handler =>
        let identifier ← handlerIdentifier page.identifier
        return [(lowered identifier, { identifier, description, content := .event handler })]
    else fail .eventSyntax

/-- The field of a structure in a row; one without a spelling in the language is left out. -/
def fieldOf (page : Page) (row : List Node) : Reading (Option Slot) := do
  match row with
  | nameCell :: typeCell :: descriptionCell :: _ =>
    match emphasised nameCell with
    -- the first name is that of other languages
    | [_, scriptName] =>
      let container := (typeCell.findBelow? (Node.hasTag "p")).getD typeCell
      match page.spelling? (← check (TypeSpelling.parse container true)) with
      | some typeName =>
        return some
          { name := trimmed scriptName.innerText, typeName,
            description := inlined descriptionCell.innerText }
      | none => return none
    | _ => fail .fieldNames
  | _ => fail .fieldColumns

def recordEntries (page : Page) (description : String) : Reading Entries := do
  match page.sections.subsection? "Members" with
  | none => fail .missingMembers
  | some members =>
    match firstTable? ((members.subsection? "Fields").getD members) with
    | none => return page.own description (.record [])
    | some table =>
      let fields ← ((tableRows table).drop 1).mapM page.fieldOf
      return page.own description (.record (fields.filterMap id))

def interfaceEntries (page : Page) (description : String) : Reading Entries := do
  let typeParameters := page.titleParameters " interface"
  let bases := (Inheritance.bases (← page.snippets)).map Json.text
  let members := (page.sections.subsection? "Members").getD page.sections
  let methods ← categoryMembers members "Methods"
  let properties ← categoryMembers members "Properties"
  return page.own description
    (.interface
      { bases, typeParameters, methods := methods.getD [], properties := properties.getD [] })

/-- The entries of a page of the given kind. -/
def entries (page : Page) : PageKind → Reading Entries
  | .cls => page.classEntries (firstParagraph page.main) false
  | .attributeType => page.classEntries (firstParagraph page.main) true
  | .enumeration => page.enumerationEntries (firstParagraph page.main)
  | .space => page.namespaceEntries (firstParagraph page.main)
  | .property => page.propertyEntries (firstParagraph page.main)
  | .delegate => page.delegateEntries (firstParagraph page.main)
  | .constructor => page.constructorEntries (firstParagraph page.main)
  | .method => page.methodEntries (firstParagraph page.main)
  | .event => page.eventEntries (firstParagraph page.main)
  | .record => page.recordEntries (firstParagraph page.main)
  | .interface => page.interfaceEntries (firstParagraph page.main)
  | .overview => .ok []

end ScriptTypings.Page
