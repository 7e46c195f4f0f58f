import ScriptTypings.Page.Entries

/-!
# Reference documents

A document is read if it carries a help identifier below the namespace root, belongs to the
preferred language, and lies in no excluded namespace. `Document.ofPage` gives its entries or the
reason why it is skipped.
-/

namespace ScriptTypings

open Text Markup

/-- What makes a tree of the text of a page. Nothing is assumed of it. -/
abbrev PageReader := String → Node

structure DocumentOptions where
  language : String := "JavaScript"
  root : String := "windows"
  excluded : List String := ["windows.ui.xaml"]
  deriving DecidableEq, Repr

inductive SkipReason
  | noIdentifier
  | outsideRoot
  | otherLanguage (language : String)
  | excludedNamespace
  | overview
  | unspelled (identifier language : String)
  | unknownTitle
  deriving DecidableEq, Repr

namespace SkipReason

def text : SkipReason → String
  | noIdentifier => "no help id"
  | outsideRoot => "outside namespace root"
  | otherLanguage language => "no " ++ language ++ " category"
  | excludedNamespace => "excluded namespace"
  | overview => "meta document"
  | unspelled _ language => language ++ " incompatible"
  | unknownTitle => "unrecognized title"

end SkipReason

inductive DocumentOutcome
  | entries (found : Page.Entries)
  | skipped (reason : SkipReason)
  deriving DecidableEq

structure Document where
  title : String
  kind : Option PageKind
  outcome : DocumentOutcome
  deriving DecidableEq

namespace Document

def isMeta (name : String) (node : Node) : Bool :=
  node.hasTag "meta" && node.attribute? "name" = some name

/-- The raw help identifier of a page. -/
def helpId? (page : Node) : Option String :=
  (page.findBelow? (isMeta "Microsoft.Help.Id")).bind (Node.filledAttribute? "content")

/-- The identifier in a raw help identifier: what follows the colon before the namespace root. -/
def identifier? (root rawId : String) : Option String :=
  (splitAt? (':' :: lower root.toList) (lower rawId.toList)).map fun (before, _) =>
    Identifier.canonical (.ofList (rawId.toList.drop (before.length + 1)))

/-- The categories of a page, in lower case. -/
def categories (page : Node) : List String :=
  (page.descendants.filter (isMeta "Microsoft.Help.Category")).map fun node =>
    lowered ((node.attribute? "content").getD "")

/-- Whether a key is one of the given ones or lies below one of them. -/
def isBelow (spaces : List String) (key : String) : Bool :=
  spaces.any fun space => key = space || Page.hasLead (space ++ ".") key

def isTitleFrame (node : Node) : Bool :=
  node.hasTag "div" && node.classNames.contains "title".toList

def isMainPart (node : Node) : Bool :=
  node.hasTag "div" && node.attribute? "id" = some "mainSection"

/-- Reads the title and the main part of a page with the given identifier. -/
def read (options : DocumentOptions) (page : Node) (identifier : String) :
    Except PageError Document :=
  match page.findBelow? isTitleFrame, page.findBelow? isMainPart with
  | some frame, some main => do
    let title := trimmed frame.innerText
    let kind ← PageKind.ofTitle title
    if kind = .overview then return ⟨title, some kind, .skipped .overview⟩
    let page : Page :=
      { title, identifier, main, sections := Section.ofNodes 1 main.children,
        language := options.language }
    match page.entries kind with
    | .ok found => return ⟨title, some kind, .entries found⟩
    | .error .unspelled =>
      return ⟨title, some kind, .skipped (.unspelled identifier options.language)⟩
    | .error (.malformed e) => throw e
  | _, _ => throw .missingFrame

/-- Reads a page tree. -/
def ofPage (options : DocumentOptions) (page : Node) : Except PageError Document :=
  let title := ((page.findBelow? (Node.hasTag "title")).map fun t => trimmed t.innerText).getD ""
  let skip := fun reason => .ok ⟨title, none, .skipped reason⟩
  match helpId? page with
  | none => skip .noIdentifier
  | some rawId =>
    match identifier? options.root rawId with
    | none => skip .outsideRoot
    | some identifier =>
      if !(categories page).contains (lowered ("DevLang:" ++ options.language)) then
        skip (.otherLanguage options.language)
      else if isBelow options.excluded (lowered identifier) then skip .excludedNamespace
      else read options page identifier

/-- Reads the text of a page. -/
def parse (reader : PageReader) (options : DocumentOptions) (text : String) :
    Except PageError Document :=
  ofPage options (reader text)

end Document

end ScriptTypings
