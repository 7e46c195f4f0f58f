import ScriptTypings.Identifier
import ScriptTypings.Page.Error
import ScriptTypings.TypeText

/-!
# Types as pages spell them

A page may spell a type once for all languages, or give alternatives with the languages they belong
to, as in `Number [JavaScript] | Int32 [.NET]`. Links and emphasised words name a type that the next
bracketed languages take. `TypeSpelling.parse` reads such a container.
-/

namespace ScriptTypings

open Text Markup

inductive TypeSpelling
  | everywhere (name : String)
  | byLanguage (names : NameMap String)
  deriving DecidableEq, Repr

namespace TypeSpelling

/-- The spelling for a language; a spelling for all languages is one for this language. -/
def for? (language : String) : TypeSpelling → Option String
  | everywhere name => some name
  | byLanguage names => NameMap.find? language names

end TypeSpelling

/-- One piece between bars: a type name, if it has one, and the languages behind it. -/
structure Alternative where
  name : Option String
  languages : List String
  deriving DecidableEq, Repr

namespace Alternative

/-- The text before a bracket at the end, and the text inside the bracket. -/
def brackets? (s : List Char) : Option (List Char × List Char) :=
  match s.reverse with
  | ']' :: rest =>
    let inside := rest.takeWhile fun c => c ≠ '[' && c ≠ ']'
    match rest.dropWhile fun c => c ≠ '[' && c ≠ ']' with
    | '[' :: before => some (before.reverse, inside.reverse)
    | _ => none
  | _ => none

/-- The trimmed parts between marks, without empty ones. -/
def parts (mark : Char) (s : List Char) : List (List Char) :=
  ((splitOnChar mark s).map trim).filter fun part => !part.isEmpty

/-- Reads a piece; brackets that are empty belong to the name. -/
def ofPiece (piece : List Char) : Alternative :=
  match brackets? piece with
  | some (before, inside) =>
    if (trim inside).isEmpty then ⟨some (.ofList piece), []⟩
    else
      let name := trim before
      ⟨if name.isEmpty then none else some (.ofList name), (parts '/' inside).map String.ofList⟩
  | none => ⟨some (.ofList piece), []⟩

/-- The alternatives that a text lists. -/
def ofText (s : List Char) : List Alternative :=
  (parts '|' s).map ofPiece

end Alternative

namespace TypeSpelling

/-- What has been read of a spelling: the names taken by languages, the name that the next
languages take, and whether an array mark waits for its name. -/
structure State where
  names : NameMap String := []
  proposed : Option String := none
  array : Bool := false

namespace State

/-- Proposes a name; a waiting array mark goes in front of it. -/
def propose (name : String) (s : State) : State :=
  if s.array then { s with proposed := some (.ofList TypeText.arrayLead ++ name), array := false }
  else { s with proposed := some name }

/-- Gives the proposed name to some languages. -/
def commit (languages : List String) (s : State) : State :=
  match s.proposed with
  | none => s
  | some name =>
    if name = "" then s
    else { s with names := languages.foldl (fun m language => NameMap.put language name m) s.names }

def readAlternative (s : State) (a : Alternative) : State :=
  if a.name = some (.ofList TypeText.arrayOf) then { s with array := true }
  else
    match a.name with
    | some name => (s.propose name).commit a.languages
    | none => s.commit a.languages

def readText (text : List Char) (s : State) : State :=
  (Alternative.ofText text).foldl readAlternative s

def result? (s : State) : Option TypeSpelling :=
  if s.names.isEmpty then s.proposed.map everywhere else some (byLanguage s.names)

end State

/-- Elements that emphasise a name. -/
def emphasises (tag : String) : Bool :=
  ["strong", "span", "b", "em", "i", "code"].contains tag

/-- Reads the nodes of a container; a paragraph ends it. -/
def readNodes : State → List Node → Except PageError State
  | s, [] => .ok s
  | s, node :: nodes =>
    match node with
    | .comment _ => readNodes s nodes
    | .text content _ =>
      if content.toList.all isBlank then readNodes s nodes
      else readNodes (s.readText content.toList) nodes
    | .element tag _ _ =>
      if tag = "a" then
        readNodes (s.propose (Identifier.ofLink ((node.attribute? "href").getD ""))) nodes
      else if emphasises tag then readNodes (s.propose (trimmed node.innerText)) nodes
      else if tag = "p" then .ok s
      else if tag = "br" then readNodes s nodes
      else .error (.elementInType tag)

/-- The mark in front of a type. -/
def typeLead : List Char := "Type:".toList

/-- Reads a container whose text begins with the type mark. A single alternative in the first text
that names no language and is no array mark is the whole type. -/
def parseMarked (nodes : List Node) : Except PageError (Option TypeSpelling) :=
  match nodes with
  | .text content _ :: nodes =>
    match dropLead? typeLead (trimStart content.toList) with
    | some rest =>
      let goOn := do return (← readNodes (({} : State).readText (trim rest)) nodes).result?
      match Alternative.ofText (trim rest) with
      | [⟨name, []⟩] =>
        if name = some (.ofList TypeText.arrayOf) then goOn else .ok (name.map everywhere)
      | _ => goOn
    | none => .error .typeLead
  | _ => .error .typeLead

/-- Reads a type container, with or without the type mark in front. -/
def parse (container : Node) (unmarked : Bool) : Except PageError (Option TypeSpelling) :=
  let nodes := container.children.filter fun node => !node.isComment
  if unmarked then do return (← readNodes {} nodes).result?
  else parseMarked nodes

end TypeSpelling

end ScriptTypings
