import ScriptTypings.Page.Document

/-!
# Reading pages without asking

The readings of `Page` and `Document` take what they look up apart, so that nothing they look up can
be missing. Here the same pages are read step by step by lookups that fail: `item` takes a position
of a list, `entry` a name of a map, `valueOf` a name of an element, and `asked` and `given` take
what may not be there. A lookup that fails is a `Fault`. Nothing but the tests that stand in front
of a lookup, in the same reading or in another one, keeps it from failing.
-/

namespace ScriptTypings.Unguarded

open Text Markup

/-- What goes wrong if a lookup is made where there is nothing. -/
inductive Fault
  | index (position : Nat)
  | key (name : String)
  | attribute
  | type
  deriving DecidableEq, Repr

/-- Why a reading ends early: by a fault, by the signal that a type has no spelling in the language,
or because the page differs from its template. -/
inductive Failure
  | fault (fault : Fault)
  | unspelled
  | malformed (error : PageError)
  deriving DecidableEq, Repr

abbrev Run := Except Failure

variable {α : Type}

def fail (error : PageError) : Run α :=
  .error (.malformed error)

/-- Goes on only where the page is as it should be. -/
def refuse (unfit : Bool) (error : PageError) : Run Unit :=
  if unfit then fail error else .ok ()

/-! ### Lookups -/

def item (position : Nat) (list : List α) : Run α :=
  match list[position]? with
  | some a => .ok a
  | none => .error (.fault (.index position))

def entry (name : String) (m : NameMap α) : Run α :=
  match NameMap.find? name m with
  | some a => .ok a
  | none => .error (.fault (.key name))

def valueOf (name : String) (node : Node) : Run String :=
  match node.attribute? name with
  | some value => .ok value
  | none => .error (.fault (.key name))

/-- Takes a thing to ask it for one of its parts. -/
def asked : Option α → Run α
  | some a => .ok a
  | none => .error (.fault .attribute)

/-- Takes a text to hand it on as one. -/
def given : Option String → Run String
  | some text => .ok text
  | none => .error (.fault .type)

/-! ### Places

A place is an element with the elements that follow it in its parent. The empty list is no place. -/

/-- The first second-level heading with a title that begins so. -/
def heading (page : Page) (lead : String) : List Node :=
  match page.main.placesBelow.find? fun place =>
    place.1.hasTag "h2" && Page.hasLead lead (titleOf place.1) with
  | some (node, following) => node :: following.filter Node.isElement
  | none => []

/-- The next element. -/
def next (place : List Node) : Run (List Node) := do
  let _ ← asked place.head?
  return place.tail

/-- Whether there is an element, and with this tag. -/
def isAt (tag : String) (place : List Node) : Run Bool := do
  if place.isEmpty then return false
  return (← asked place.head?).hasTag tag

/-- Whether there is no element, or none with a value for the attribute. -/
def lacks (name : String) (node : Option Node) : Run Bool := do
  if node.isNone then return true
  return ((← asked node).filledAttribute? name).isNone

/-- The text of the element at a position; a shorter list has none. -/
def textAt (position : Nat) (elements : List Node) : Run String := do
  if elements.length ≤ position then return ""
  return inlined (← item position elements).innerText

/-! ### Tables and definition lists -/

def firstTable (s : Option Markup.Section) : Run (Option Node) := do
  if s.isNone then return none
  return firstTable? (← asked s)

def matrix (table : Option Node) : Run (List (List Node)) := do
  return tableRows (← asked table)

/-- Reads one child of a definition list: a definition is added to those of the term that is being
read. -/
def addDefinition (d : Definitions) : Node → Run Definitions
  | .comment _ => .ok d
  | .text content _ =>
    if content.toList.all isBlank then .ok d else fail (.definitionList .strayText)
  | .element tag attributes children =>
    if tag = "dt" then
      let term := trimmed (Node.element tag attributes children).innerText
      .ok ⟨NameMap.put term [] d.found, some term⟩
    else if tag = "dd" then
      match d.term with
      | none => fail (.definitionList .definitionFirst)
      | some term => do
        let before ← entry term d.found
        let definition := Node.element tag attributes children
        return { d with found := NameMap.put term (before ++ [definition]) d.found }
    else fail (.definitionList (.strayElement tag))

def definitions (list : Option Node) : Run (NameMap (List Node)) := do
  let d ← (← asked list).children.foldlM addDefinition {}
  return d.found

/-! ### Types -/

/-- Whether there are brackets, and not empty ones. -/
def listsLanguages (brackets : Option (List Char × List Char)) : Run Bool := do
  if brackets.isNone then return false
  return !(trim (← asked brackets).2).isEmpty

def alternative (piece : List Char) : Run Alternative := do
  let brackets := Alternative.brackets? piece
  if ← listsLanguages brackets then
    let (before, inside) ← asked brackets
    let name := trim before
    return ⟨if name.isEmpty then none else some (.ofList name),
      (Alternative.parts '/' inside).map String.ofList⟩
  else return ⟨some (.ofList piece), []⟩

def alternatives (text : List Char) : Run (List Alternative) :=
  (Alternative.parts '|' text).mapM alternative

def readText (s : TypeSpelling.State) (text : List Char) : Run TypeSpelling.State := do
  return (← alternatives text).foldl TypeSpelling.State.readAlternative s

def readNodes : TypeSpelling.State → List Node → Run TypeSpelling.State
  | s, [] => .ok s
  | s, node :: nodes =>
    match node with
    | .comment _ => readNodes s nodes
    | .text content _ => do
      if content.toList.all isBlank then readNodes s nodes
      else readNodes (← readText s content.toList) nodes
    | .element tag _ _ =>
      if tag = "a" then
        readNodes (s.propose (Identifier.ofLink ((node.attribute? "href").getD ""))) nodes
      else if TypeSpelling.emphasises tag then readNodes (s.propose (trimmed node.innerText)) nodes
      else if tag = "p" then .ok s
      else if tag = "br" then readNodes s nodes
      else fail (.elementInType tag)

/-- Whether the alternatives are a single one that names no language and is no array mark. -/
def isWhole (found : List Alternative) : Run Bool := do
  if found.length ≠ 1 then return false
  if !(← item 0 found).languages.isEmpty then return false
  return (← item 0 found).name ≠ some (.ofList TypeText.arrayOf)

def spelling (container : Node) (unmarked : Bool) : Run (Option TypeSpelling) := do
  let nodes := container.children.filter fun node => !node.isComment
  if unmarked then return (← readNodes {} nodes).result?
  let first ← if nodes.isEmpty then pure none else some <$> item 0 nodes
  match first with
  | some (.text content _) =>
    match dropLead? TypeSpelling.typeLead (trimStart content.toList) with
    | none => fail .typeLead
    | some rest =>
      let found ← alternatives (trim rest)
      if ← isWhole found then return (← item 0 found).name.map .everywhere
      return (← readNodes (← readText {} (trim rest)) (nodes.drop 1)).result?
  | _ => fail .typeLead

/-- The type in a container; without a spelling in the language the signal is given. -/
def typeIn (page : Page) (container : Node) : Run String := do
  let found := page.spelling? (← spelling container false)
  if found.isNone then .error .unspelled else given found

/-! ### Parts of pages -/

/-- The base types in the samples, languages in order. -/
def bases (snippets : NameMap String) : List String → Run (List String)
  | [] => .ok []
  | language :: languages => do
    let code := NameMap.find? language snippets
    if (code.filter (· ≠ "")).isNone then return ← bases snippets languages
    let declaration := Inheritance.declaration? false (Inheritance.dotScopes (← asked code).toList)
    if declaration.isNone then return ← bases snippets languages
    return Inheritance.clauseBases (← asked declaration)

/-- The code samples in a row of elements. -/
def samples (found : NameMap String) : List Node → Run (NameMap String)
  | [] => .ok found
  | element :: following => do
    if !element.hasTag "codesnippet" then return found
    let language := element.attribute? "language"
    refuse (language.filter (· ≠ "")).isNone .snippetWithoutLanguage
    samples (NameMap.put (← given language) element.innerText found) following

def snippets (page : Page) : Run (NameMap String) := do
  let place := heading page "Syntax"
  if place.isEmpty then return []
  samples [] (← next place)

/-- A row that has cells, with the identifier that its first link names. -/
def rowLink (row : List Node) : Run (Option (List Node × String)) := do
  if row.isEmpty then return none
  let anchor := row.findSome? fun cell => cell.findBelow? (Node.hasTag "a")
  refuse (← lacks "href" anchor) .rowWithoutLink
  return some (row, Identifier.ofLink (← valueOf "href" (← asked anchor)))

def rowLinks (table : Option Node) : Run (List (List Node × String)) := do
  return (← ((← matrix table).drop 1).mapM rowLink).filterMap id

def parameter (page : Page) (described : String × List Node) : Run Slot := do
  refuse described.2.isEmpty (.undefinedParameter described.1)
  let parts := (← item 0 described.2).elements
  refuse parts.isEmpty (.untypedParameter described.1)
  let typeName ← typeIn page (← item 0 parts)
  return { name := described.1, typeName, description := ← textAt 1 parts }

def parameters (page : Page) : Run (List Slot) := do
  let place := heading page "Parameters"
  refuse place.isEmpty .missingParameters
  let place ← next place
  if !(← isAt "dl" place) then
    if ← isAt "p" place then return []
    fail .parameterFormat
  (← definitions place.head?).mapM (parameter page)

/-! ### Kinds of pages -/

def classEntries (isAttribute : Bool) (page : Page) (description : String) : Run Page.Entries := do
  let found ← bases (← snippets page) Inheritance.languages
  return page.own description (.cls (found.map Json.text) isAttribute)

/-- The entry of an enumeration member; a row without cells or without a script name has none. -/
def enumerationMember (page : Page) (row : List Node) : Run (Option (String × Entry)) := do
  if row.isEmpty then return none
  let names := Page.emphasised (← item 0 row)
  if names.length < 2 then return none
  let name := trimmed (← item 1 names).innerText
  let description ← textAt 2 row
  return some (page.key ++ "." ++ lowered name,
    { identifier := Identifier.member page.identifier name, description,
      content := .property "Number" })

def enumerationEntries (page : Page) (description : String) : Run Page.Entries := do
  let table ← firstTable (page.sections.subsection? "Members")
  refuse table.isNone .enumerationFormat
  let members ← ((← matrix table).drop 1).mapM (enumerationMember page)
  return page.own description .enumeration ++ members.filterMap id

def categories : List String := ["Structures", "Delegates", "Interfaces"]

/-- The last words of labels, and the categories they stand for. -/
def labelEndings : List (String × String) :=
  [(" structure", "Structures"), (" delegate", "Delegates"), (" interface", "Interfaces")]

/-- Adds the members of a category to those found; the flag tells that some category has a table. -/
def addCategory (members : Option Markup.Section) (found : NameMap (List Json) × Bool)
    (category : String) : Run (NameMap (List Json) × Bool) := do
  let table ← firstTable ((← asked members).subsection? category)
  if table.isNone then return found
  let before ← entry category found.1
  let rows ← rowLinks table
  return (NameMap.put category (before ++ rows.map fun row => .text row.2) found.1, true)

def addLabelled (found : NameMap (List Json)) (row : List Node × String) :
    Run (NameMap (List Json)) := do
  let label := lower (oneLine (← item 0 row.1).innerText.toList)
  match labelEndings.find? fun ending => endsWith label ending.1.toList with
  | none => return found
  | some ending =>
    let before ← entry ending.2 found
    return NameMap.put ending.2 (before ++ [.text row.2]) found

def addCombined (page : Page) (members : Option Markup.Section) (found : NameMap (List Json)) :
    Run (NameMap (List Json)) := do
  let combined := page.sections.subsection? "In this section"
  let combined ←
    if combined.isNone && members.isSome then
      let members ← asked members
      pure (some ((members.subsection? "In this section").getD members))
    else pure combined
  let table ← firstTable combined
  if table.isNone then return found
  (← rowLinks table).foldlM addLabelled found

def namespaceListing (page : Page) : Run NamespaceListing := do
  let members := page.sections.subsection? "Members"
  let start : NameMap (List Json) × Bool := (categories.map fun category => (category, []), false)
  let (found, categorized) ←
    if members.isSome then categories.foldlM (addCategory members) start else pure start
  let found ← if categorized then pure found else addCombined page members found
  return { structures := ← entry "Structures" found, delegates := ← entry "Delegates" found,
           interfaces := ← entry "Interfaces" found }

def namespaceEntries (page : Page) (description : String) : Run Page.Entries := do
  return page.own description (.space (← namespaceListing page))

def propertyEntries (page : Page) (description : String) : Run Page.Entries := do
  let place := heading page "Property value"
  let place ← if place.isEmpty then pure [] else next place
  refuse place.isEmpty .missingValue
  return page.own description (.property (← typeIn page (← asked place.head?)))

def delegateEntries (page : Page) (description : String) : Run Page.Entries := do
  return page.own description (.delegate
    { parameters := ← parameters page, typeParameters := page.titleParameters " delegate" })

def constructorEntries (page : Page) (description : String) : Run Page.Entries := do
  match splitAt? ".#ctor".toList (lower page.identifier.toList) with
  | none => fail .missingConstructorMark
  | some (owner, _) =>
    let identifier :=
      Identifier.member (.ofList (page.identifier.toList.take owner.length)) "constructor"
    let parameters ← parameters page
    let snippets ← snippets page
    let signature : Signature :=
      { description, parameters, returned := .newInstance,
        snippets := NameMap.mapValues .text snippets }
    return [(lowered identifier, { identifier, content := .function [signature] })]

def returnValue (page : Page) : Run Returned := do
  let place := heading page "Return value"
  if place.isEmpty then return .nothing
  let place ← next place
  if !(← isAt "p" place) then return .typed "unknown" ""
  let element ← asked place.head?
  if !TypeSpelling.typeLead.isPrefixOf (trimStart element.innerText.toList) then
    return .typed "unknown" (inlined element.innerText)
  let typeName ← typeIn page element
  let following ← next place
  if !(← isAt "p" following) then return .typed typeName ""
  return .typed typeName (inlined (← asked following.head?).innerText)

def methodEntries (page : Page) (description : String) : Run Page.Entries := do
  let snippets ← snippets page
  let parameters ← parameters page
  let returned ← returnValue page
  let signature : Signature :=
    { description, parameters, returned, snippets := NameMap.mapValues .text snippets }
  return [(page.key, { identifier := page.identifier, content := .function [signature] })]

/-- Whether a table does not have one row with two cells or more. -/
def isMisshapen (rows : List (List Node)) : Run Bool := do
  if rows.length ≠ 1 then return true
  return (← item 0 rows).length < 2

def eventTypeCell (page : Page) : Run Node := do
  let place := heading page "Event information"
  let place ← if place.isEmpty then pure [] else next place
  refuse (!(← isAt "table" place)) .missingEventTable
  let rows ← matrix place.head?
  refuse (← isMisshapen rows) .eventTableShape
  item 1 (← item 0 rows)

def eventEntries (page : Page) (description : String) : Run Page.Entries := do
  let code := NameMap.find? page.language (← snippets page)
  refuse code.isNone (.missingSnippet page.language)
  refuse (!EventSyntax.isComplete (← given code)) .eventSyntax
  let handler := page.spelling? (← spelling (← eventTypeCell page) true)
  refuse handler.isNone (.missingEventType page.language)
  match Identifier.mapLast? (fun name => 'o' :: 'n' :: name) page.identifier with
  | none => fail (.undottedIdentifier page.identifier)
  | some identifier =>
    let content := .event (← given handler)
    return [(lowered identifier, { identifier, description, content })]

def fieldOf (page : Page) (row : List Node) : Run (Option Slot) := do
  refuse (row.length < 3) .fieldColumns
  let names := Page.emphasised (← item 0 row)
  refuse (names.length ≠ 2) .fieldNames
  let typeCell ← item 1 row
  let container := (typeCell.findBelow? (Node.hasTag "p")).getD typeCell
  let found := page.spelling? (← spelling container true)
  if found.isNone then return none
  return some
    { name := trimmed (← item 1 names).innerText, typeName := ← given found,
      description := inlined (← item 2 row).innerText }

def recordEntries (page : Page) (description : String) : Run Page.Entries := do
  let members := page.sections.subsection? "Members"
  refuse members.isNone .missingMembers
  let fields := (← asked members).subsection? "Fields"
  let table ← if fields.isSome then firstTable fields else firstTable members
  if table.isNone then return page.own description (.record [])
  let found ← ((← matrix table).drop 1).mapM (fieldOf page)
  return page.own description (.record (found.filterMap id))

/-- The identifiers in the member table of a section. -/
def membersOf (s : Markup.Section) (title : String) : Run (List Json) := do
  let table ← firstTable (s.subsection? title)
  if table.isNone then return []
  return (← rowLinks table).map fun row => .text row.2

def interfaceEntries (page : Page) (description : String) : Run Page.Entries := do
  let found ← bases (← snippets page) Inheritance.languages
  let members := (page.sections.subsection? "Members").getD page.sections
  let methods ← membersOf members "Methods"
  let properties ← membersOf members "Properties"
  return page.own description
    (.interface
      { bases := found.map Json.text, typeParameters := page.titleParameters " interface",
        methods, properties })

/-- The readings of the kinds of pages that document something. -/
def readings : List (PageKind × (Page → String → Run Page.Entries)) :=
  [(.cls, classEntries false), (.attributeType, classEntries true),
    (.enumeration, enumerationEntries), (.space, namespaceEntries), (.property, propertyEntries),
    (.delegate, delegateEntries), (.constructor, constructorEntries), (.method, methodEntries),
    (.event, eventEntries), (.record, recordEntries), (.interface, interfaceEntries)]

def readingOf (kind : PageKind) : Run (Page → String → Run Page.Entries) :=
  match readings.find? fun reading => reading.1 = kind with
  | some reading => .ok reading.2
  | none => .error (.fault (.key kind.name))

/-! ### Whole pages -/

/-- What reading a page gives: entries, or the reason to skip it. -/
structure Parsed where
  title : String
  kind? : Option PageKind := none
  entries : Page.Entries := []
  skip? : Option SkipReason := none
  deriving DecidableEq

/-- The sections of a main part, from its first child on. -/
def sectionsOf (main : Node) : Run Markup.Section := do
  if main.children.isEmpty then return .empty
  let first ← item 0 main.children
  return Section.ofNodes 1 (first :: main.children.tail)

/-- Reads the title and the main part of a page with the given identifier. The signal that a type
has no spelling skips the page. -/
def readParts (options : DocumentOptions) (page : Node) (identifier : String) : Run Parsed := do
  let frame := page.findBelow? Document.isTitleFrame
  let main := page.findBelow? Document.isMainPart
  refuse (frame.isNone || main.isNone) .missingFrame
  let title := trimmed (← asked frame).innerText
  let kind ←
    match PageKind.ofTitle title with
    | .ok kind => pure kind
    | .error e => fail e
  if kind = .overview then return { title, kind? := some kind, skip? := some .overview }
  let main ← asked main
  let parts : Page :=
    { title, identifier, main, sections := ← sectionsOf main, language := options.language }
  let found := do (← readingOf kind) parts (Page.firstParagraph main)
  match found with
  | .ok entries => return { title, kind? := some kind, entries }
  | .error .unspelled =>
    return { title, kind? := some kind, skip? := some (.unspelled identifier options.language) }
  | .error failure => throw failure

def pageTitle (page : Node) : Run String := do
  let frame := page.findBelow? (Node.hasTag "title")
  if frame.isNone then return ""
  return trimmed (← asked frame).innerText

/-- Reads a page tree. -/
def parse (options : DocumentOptions) (page : Node) : Run Parsed := do
  let title ← pageTitle page
  let identified := page.findBelow? (Document.isMeta "Microsoft.Help.Id")
  if ← lacks "content" identified then return { title, skip? := some .noIdentifier }
  let rawId ← valueOf "content" (← asked identified)
  match Document.identifier? options.root rawId with
  | none => return { title, skip? := some .outsideRoot }
  | some identifier =>
    if !(Document.categories page).contains (lowered ("DevLang:" ++ options.language)) then
      return { title, skip? := some (.otherLanguage options.language) }
    if Document.isBelow options.excluded (lowered identifier) then
      return { title, skip? := some .excludedNamespace }
    readParts options page identifier

end ScriptTypings.Unguarded
