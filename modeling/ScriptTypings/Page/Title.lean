import ScriptTypings.Page.Error
import ScriptTypings.Text.Search

/-!
# Kinds of pages

The last word of a page's title tells what the page documents.
-/

namespace ScriptTypings

inductive PageKind
  | cls
  | attributeType
  | enumeration
  | space
  | property
  | delegate
  | constructor
  | method
  | event
  | record
  | interface
  | overview
  deriving DecidableEq, Repr

namespace PageKind

/-- The word for a kind. -/
def name : PageKind → String
  | cls => "class"
  | attributeType => "attribute"
  | enumeration => "enumeration"
  | space => "namespace"
  | property => "property"
  | delegate => "delegate"
  | constructor => "constructor"
  | method => "method"
  | event => "event"
  | record => "structure"
  | interface => "interface"
  | overview => "meta"

/-- Title endings and the kinds of pages that have them. -/
def endings : List (String × PageKind) :=
  [(" class", cls), (" attribute", attributeType), (" enumeration", enumeration),
    (" namespace", space), (" property", property), (" delegate", delegate),
    (" constructor", constructor), (" method", method), (" event", event), (" structure", record),
    (" interface", interface), (" constructors", overview), (" methods", overview),
    (" properties", overview), (" events", overview), (" members", overview)]

/-- Titles of pages that document nothing. -/
def emptyTitles : List String := ["Content Removed"]

/-- The kind of page that a title announces. -/
def ofTitle (title : String) : Except PageError PageKind :=
  if emptyTitles.contains title then .ok overview
  else
    match endings.find? fun ending => Text.endsWith title.toList ending.1.toList with
    | some ending => .ok ending.2
    | none => .error (.unknownTitle title)

end PageKind

end ScriptTypings
