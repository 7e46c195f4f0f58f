import ScriptTypings.Markup.Nesting
import ScriptTypings.Markup.Node
import ScriptTypings.Markup.Token

/-!
# Building page trees

Tokens are put together with a list of the open elements, innermost first. A start tag closes the
open elements that cannot hold it, an end tag closes everything inside its element, and a page
without `html` and `body` gets them. Texts with no start, end or comment between them are one text.
-/

namespace ScriptTypings.Markup

open Text

/-- An element that is still open; its finished children are held backwards. -/
structure OpenElement where
  tag : String
  attributes : List (String × String)
  done : List Node

/-- A page tree under construction; finished nodes outside all elements are held backwards. The
pending text is not yet part of the tree, and `ignored` counts start tags of `html`, `head` and
`body` that were left out and whose end tags are to be left out too. -/
structure Builder where
  outside : List Node := []
  opened : List OpenElement := []
  pending : Option (List Char) := none
  sawHead : Bool := false
  sawBody : Bool := false
  ignored : Nat := 0

/-- Elements that keep blank texts as they are. -/
def keepsBlanks (tag : String) : Bool :=
  tag = "pre" || tag = "textarea"

/-- A blank text counts as one line feed if it holds any, and as one space otherwise. -/
def normalText (content : List Char) : List Char :=
  if content.all isLayoutBlank then
    if content.contains '\n' then ['\n'] else [' ']
  else content

/-- The tags that make up a page. -/
def framesPage (tag : String) : Bool :=
  tag = "html" || tag = "head" || tag = "body"

namespace Builder

def isOpen (tag : String) (b : Builder) : Bool :=
  b.opened.any (·.tag = tag)

def innermost? (b : Builder) : Option String :=
  b.opened.head?.map OpenElement.tag

/-- Puts a finished node into the innermost open element. -/
def put (node : Node) (b : Builder) : Builder :=
  match b.opened with
  | [] => { b with outside := node :: b.outside }
  | inner :: rest => { b with opened := { inner with done := node :: inner.done } :: rest }

/-- A text as it stands at the current place. -/
def written (content : List Char) (b : Builder) : String :=
  .ofList (if b.opened.any (keepsBlanks ·.tag) then content else normalText content)

/-- The kind of a text at the current place. -/
def textKind (b : Builder) : TextKind :=
  match b.opened.find? (keepsText ·.tag) with
  | some keeper => .kept keeper.tag
  | none => .plain

/-- Ends the pending text. -/
def flush (b : Builder) : Builder :=
  match b.pending with
  | none => b
  | some content => { b with pending := none }.put (.text (b.written content) b.textKind)

/-- Closes the innermost open element. -/
def close (b : Builder) : Builder :=
  let b := b.flush
  match b.opened with
  | [] => b
  | inner :: rest =>
    { b with opened := rest }.put (.element inner.tag inner.attributes inner.done.reverse)

/-- Closes a number of open elements. -/
def closeMany : Nat → Builder → Builder
  | 0, b => b
  | count + 1, b => closeMany count b.close

def push (tag : String) (attributes : List (String × String)) (b : Builder) : Builder :=
  let b := b.flush
  { b with
    opened := ⟨tag, attributes, []⟩ :: b.opened
    sawHead := b.sawHead || tag = "head"
    sawBody := b.sawBody || tag = "body" }

/-- How many of the innermost elements a start tag closes. -/
def closedBy (new : String) : List OpenElement → Nat
  | [] => 0
  | inner :: rest => if closes new inner.tag then closedBy new rest + 1 else 0

/-- Closes the open elements that cannot hold an element with the given tag. -/
def makeWay (tag : String) (b : Builder) : Builder :=
  b.closeMany (closedBy tag b.opened)

/-- Opens the elements that must be around one with the given tag. -/
def imply (tag : String) (b : Builder) : Builder :=
  if tag = "html" then b
  else
    let b := if b.opened.isEmpty then b.push "html" [] else b
    if tag = "body" || tag = "head" then b
    else if b.opened.length ≤ 1 && belongsInHead tag then
      if b.sawHead || b.sawBody then b else b.push "head" []
    else if replacesBody tag || b.sawBody || b.isOpen "head" then b
    else b.push "body" []

/-- How often a start tag counts as left out: `html` inside of anything, `head` anywhere but
directly in `html`, and `body` once for each `body` around it. -/
def timesIgnored (tag : String) (b : Builder) : Nat :=
  if tag = "html" then if b.opened.isEmpty then 0 else 1
  else if tag = "head" then if b.opened.length = 1 then 0 else 1
  else if tag = "body" then b.opened.countP (·.tag = "body")
  else 0

def start (tag : String) (attributes : List (String × String)) (isClosed : Bool) (b : Builder) :
    Builder :=
  let b := (b.makeWay tag).imply tag
  let times := b.timesIgnored tag
  let b := if times = 0 then b.push tag attributes else { b with ignored := b.ignored + times }
  if isClosed || (times = 0 && isVoid tag) then b.close else b

/-- How many open elements an end tag closes: none if it matches no open element, or only one
outside of an element that resists. -/
def finishedBy (tag : String) : List OpenElement → Option Nat
  | [] => none
  | inner :: rest =>
    if inner.tag = tag then some 1
    else if closingRank tag < closingRank inner.tag then none
    else (finishedBy tag rest).map (· + 1)

def finish (tag : String) (b : Builder) : Builder :=
  if 0 < b.ignored && framesPage tag then { b with ignored := b.ignored - 1 }
  else
    match finishedBy tag b.opened with
    | some count => b.closeMany count
    | none => b

/-- Adds characters to the pending text. -/
def hold (content : List Char) (b : Builder) : Builder :=
  if content.isEmpty then b else { b with pending := some (b.pending.getD [] ++ content) }

/-- Adds text. Outside of all elements, and directly in `html` or `head`, what follows the blanks
at its front belongs into a body. -/
def text (content : List Char) (b : Builder) : Builder :=
  let isLoose :=
    match b.innermost? with
    | some tag => tag = "html" || tag = "head"
    | none => true
  if isLoose then
    let b := b.hold (content.takeWhile isLayoutBlank)
    let rest := content.dropWhile isLayoutBlank
    if rest.isEmpty then b
    else
      let b := if b.innermost? = some "head" then b.makeWay "p" else b
      (b.imply "p").hold rest
  else b.hold content

/-- Adds a comment; one without content is blank. -/
def comment (content : List Char) (b : Builder) : Builder :=
  let b := b.flush
  b.put (.comment (b.written content))

/-- Adds the name of a document type. -/
def documentType (name : String) (b : Builder) : Builder :=
  b.flush.put (.text name .documentType)

def step (b : Builder) : Token → Builder
  | .start tag attributes isClosed => b.start tag attributes isClosed
  | .finish tag => b.finish tag
  | .comment content => b.comment content.toList
  | .documentType name => b.documentType name
  | .text content => b.text content.toList

/-- The finished tree. -/
def nodes (b : Builder) : List Node :=
  (b.flush.closeMany b.opened.length).outside.reverse

end Builder

/-- The top nodes of the page with the given text. -/
def readNodes (s : String) : List Node :=
  ((Token.scan s).foldl Builder.step {}).nodes

/-- The page with the given text, as one node above its top nodes. -/
def readPage (s : String) : Node :=
  .element "" [] (readNodes s)

end ScriptTypings.Markup
