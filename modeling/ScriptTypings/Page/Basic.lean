import ScriptTypings.Entry.Basic
import ScriptTypings.Markup.Table
import ScriptTypings.Page.TypeSpelling

/-!
# Parts of a page

A reference page has a title, an identifier, and a main part that headings divide into sections.
This module finds the parts that the kinds of pages have in common: syntax samples, parameter
lists, and tables of linked members.
-/

namespace ScriptTypings

open Text Markup

structure Page where
  title : String
  identifier : String
  main : Node
  sections : Markup.Section
  language : String

/-- Why a page gives no entries: a type it needs has no spelling in the preferred language, or it
differs from its template. -/
inductive Rejection
  | unspelled
  | malformed (error : PageError)
  deriving DecidableEq, Repr

namespace Page

abbrev Reading := Except Rejection

def fail {α : Type} (error : PageError) : Reading α :=
  .error (.malformed error)

def check {α : Type} : Except PageError α → Reading α
  | .ok a => .ok a
  | .error e => fail e

/-- The key of the page's own entry. -/
def key (page : Page) : String :=
  lowered page.identifier

def hasLead (lead : String) (s : String) : Bool :=
  lead.toList.isPrefixOf s.toList

/-- The nodes that follow the first second-level heading with a title that begins so. -/
def following? (page : Page) (lead : String) : Option (List Node) :=
  (page.main.placesBelow.find? fun place =>
    place.1.hasTag "h2" && hasLead lead (titleOf place.1)).map Prod.snd

/-- The element that follows such a heading. -/
def elementAfter? (page : Page) (lead : String) : Option Node :=
  (page.following? lead).bind firstElement?

/-- The spelling of a type for the page's language; an empty one does not count. -/
def spelling? (page : Page) (spelling : Option TypeSpelling) : Option String :=
  (spelling.bind (TypeSpelling.for? page.language)).filter (· ≠ "")

/-- The type that a container spells; the page is given up if the language has no spelling. -/
def typeIn (page : Page) (container : Node) : Reading String := do
  match page.spelling? (← check (TypeSpelling.parse container false)) with
  | some typeName => return typeName
  | none => throw .unspelled

/-- The text of the first paragraph in front of the first second-level heading. -/
def firstParagraph (main : Node) : String :=
  match (main.elements.takeWhile fun e => !e.hasTag "h2").find? (Node.hasTag "p") with
  | some paragraph => inlined paragraph.innerText
  | none => ""

/-- Adds the code sample of an element to those found before. -/
def addSnippet (found : NameMap String) (sample : Node) : Reading (NameMap String) :=
  match sample.filledAttribute? "language" with
  | some language => .ok (NameMap.put language sample.innerText found)
  | none => fail .snippetWithoutLanguage

/-- The code samples below the syntax heading, by language. -/
def snippets (page : Page) : Reading (NameMap String) :=
  match page.following? "Syntax" with
  | none => .ok []
  | some nodes =>
    ((nodes.filter Node.isElement).takeWhile (Node.hasTag "codesnippet")).foldlM addSnippet []

/-- The identifier that the first link of a row names. -/
def rowLink (row : List Node) : Reading String :=
  match row.findSome? fun cell => cell.findBelow? (Node.hasTag "a") with
  | some anchor =>
    match anchor.filledAttribute? "href" with
    | some target => .ok (Identifier.ofLink target)
    | none => fail .rowWithoutLink
  | none => fail .rowWithoutLink

/-- The rows of a member table that have cells, the header row left out. -/
def dataRows (table : Node) : List (List Node) :=
  ((tableRows table).drop 1).filter fun row => !row.isEmpty

/-- The identifiers that a member table links to, row by row. -/
def linkedMembers (table : Node) : Reading (List Json) :=
  (dataRows table).mapM fun row => Json.text <$> rowLink row

/-- Reads a parameter: its type stands in the first element of its first definition and its
description in the second. -/
def parameter (page : Page) (entry : String × List Node) : Reading Slot := do
  match entry.2 with
  | [] => fail (.undefinedParameter entry.1)
  | definition :: _ =>
    match definition.elements with
    | [] => fail (.untypedParameter entry.1)
    | container :: rest =>
      let typeName ← page.typeIn container
      let description := (rest.head?.map fun e => inlined e.innerText).getD ""
      return { name := entry.1, typeName, description }

/-- The parameters of a function; a paragraph in the place of the list says that it has none. -/
def parameters (page : Page) : Reading (List Slot) := do
  match page.following? "Parameters" with
  | none => fail .missingParameters
  | some nodes =>
    match firstElement? nodes with
    | none => fail .parameterFormat
    | some element =>
      if element.hasTag "dl" then
        match definitions element with
        | .ok found => found.mapM page.parameter
        | .error e => fail (.definitionList e)
      else if element.hasTag "p" then return []
      else fail .parameterFormat

end Page

end ScriptTypings
