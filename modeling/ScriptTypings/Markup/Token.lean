import ScriptTypings.Markup.Reference
import ScriptTypings.NameMap
import ScriptTypings.Text.Search

/-!
# Markup tokens

`Token.scan` cuts the text of a page into start tags, end tags, comments, document types and texts.
The content of some elements is one text up to their end tag, and markup that is neither tag nor
comment counts as a comment.
-/

namespace ScriptTypings.Markup

open Text

inductive Token
  | start (tag : String) (attributes : List (String × String)) (isClosed : Bool)
  | finish (tag : String)
  | comment (content : String)
  | documentType (name : String)
  | text (content : String)

/-- What stands between the tags of an element: markup, text with references, text as it is, a
script, or text up to the end of the page. -/
inductive ContentModel
  | markup
  | references
  | raw
  | script
  | endless
  deriving DecidableEq

def contentModel (tag : String) : ContentModel :=
  if tag = "title" || tag = "textarea" then .references
  else if ["style", "xmp", "iframe", "noembed", "noframes"].contains tag then .raw
  else if tag = "script" then .script
  else if tag = "plaintext" then .endless
  else .markup

/-- Lower case of ASCII letters, the casing of tags and attribute names. -/
def lowerName (s : List Char) : String :=
  .ofList (s.map Char.toLower)

def endsTagName (c : Char) : Bool :=
  isLayoutBlank c || c = '/' || c = '>'

def endsAttributeName (c : Char) : Bool :=
  endsTagName c || c = '='

/-- The rest of a text behind a beginning that is given in lower case. -/
def dropName? : List Char → List Char → Option (List Char)
  | [], s => some s
  | _ :: _, [] => none
  | a :: name, c :: s => if a = c.toLower then dropName? name s else none

/-- Whether a text begins with the given text in any casing and a character that ends a tag name. -/
def beginsTag (lead s : List Char) : Bool :=
  match dropName? lead s with
  | some (c :: _) => endsTagName c
  | _ => false

/-- The value behind an equals sign, with its references decoded, and what follows it. -/
def readValue (s : List Char) : List Char × List Char :=
  match s.dropWhile isLayoutBlank with
  | '"' :: rest =>
    (decodeReferences true (rest.takeWhile (· ≠ '"')), (rest.dropWhile (· ≠ '"')).drop 1)
  | '\'' :: rest =>
    (decodeReferences true (rest.takeWhile (· ≠ '\'')), (rest.dropWhile (· ≠ '\'')).drop 1)
  | rest =>
    (decodeReferences true (rest.takeWhile fun c => !isLayoutBlank c && c ≠ '>'),
      rest.dropWhile fun c => !isLayoutBlank c && c ≠ '>')

/-- What stands in a tag behind its name: the attributes, each name once, and whether a slash
closes the tag. -/
structure TagBody where
  attributes : List (String × String)
  isClosed : Bool

/-- Reads a tag behind its name and answers what follows it; none if the tag does not end. The fuel
bounds the number of attributes and slashes. -/
def readTag? : Nat → List (String × String) → List Char → Option (TagBody × List Char)
  | 0, _, _ => none
  | fuel + 1, found, s =>
    match s.dropWhile isLayoutBlank with
    | [] => none
    | '>' :: rest => some (⟨found, false⟩, rest)
    | '/' :: '>' :: rest => some (⟨found, true⟩, rest)
    | '/' :: rest => readTag? fuel found rest
    | c :: rest =>
      let name := lowerName (c :: rest.takeWhile fun c => !endsAttributeName c)
      let rest := rest.dropWhile fun c => !endsAttributeName c
      let (value, rest) :=
        match rest.dropWhile isLayoutBlank with
        | '=' :: rest => readValue rest
        | _ => ([], rest)
      readTag? fuel (if NameMap.has name found then found else found ++ [(name, .ofList value)])
        rest

/-- A text up to the end tag of an element, and the end tag with what follows it. -/
def readRaw (tag : List Char) : List Char → List Char × List Char
  | [] => ([], [])
  | c :: rest =>
    if beginsTag ('<' :: '/' :: tag) (c :: rest) then ([], c :: rest)
    else
      let (content, after) := readRaw tag rest
      (c :: content, after)

/-- Where a script is: outside of comments, inside one, or inside a script inside a comment. -/
inductive ScriptPlace
  | plain
  | commented
  | nested

/-- A script up to its end tag, and the end tag with what follows it. An end tag inside a script
that a comment quotes does not count. -/
def readScript : ScriptPlace → List Char → List Char × List Char
  | _, [] => ([], [])
  | place, c :: rest =>
    let endTag := beginsTag "</script".toList (c :: rest)
    let goOn := fun (place : ScriptPlace) =>
      let (content, after) := readScript place rest
      (c :: content, after)
    match place with
    | .plain =>
      if endTag then ([], c :: rest)
      else if (dropLead? "<!--".toList (c :: rest)).isSome then goOn .commented
      else goOn .plain
    | .commented =>
      if endTag then ([], c :: rest)
      else if (dropLead? "-->".toList (c :: rest)).isSome then goOn .plain
      else if beginsTag "<script".toList (c :: rest) then goOn .nested
      else goOn .commented
    | .nested =>
      if endTag then goOn .commented
      else if (dropLead? "-->".toList (c :: rest)).isSome then goOn .plain
      else goOn .nested

/-- A comment up to its closing mark, and what follows it. Dashes in front of the end of the page
belong to a closing mark that is cut off. -/
def readComment : List Char → List Char × List Char
  | [] => ([], [])
  | c :: rest =>
    match dropLead? "-->".toList (c :: rest), dropLead? "--!>".toList (c :: rest) with
    | some after, _ => ([], after)
    | none, some after => ([], after)
    | none, none =>
      if ["-", "--", "--!"].contains (String.ofList (c :: rest)) then ([], [])
      else
        let (content, after) := readComment rest
        (c :: content, after)

/-- A comment behind its opening mark: a greater-than sign closes an empty one. -/
def readCommentFrom (s : List Char) : List Char × List Char :=
  match dropLead? ">".toList s, dropLead? "->".toList s with
  | some after, _ => ([], after)
  | none, some after => ([], after)
  | none, none => readComment s

/-- Markup that is no tag, up to a greater-than sign, and what follows it. -/
def readDeclaration (s : List Char) : List Char × List Char :=
  (s.takeWhile (· ≠ '>'), (s.dropWhile (· ≠ '>')).drop 1)

/-- Whether a less-than sign followed by this text begins markup. -/
def beginsMarkup : List Char → Bool
  | [] => false
  | c :: rest => c = '!' || c = '?' || isAsciiLetter c || (c = '/' && !rest.isEmpty)

/-- The text up to the next markup, and the markup with what follows it. -/
def readText : List Char → List Char × List Char
  | [] => ([], [])
  | c :: rest =>
    if c = '<' && beginsMarkup rest then ([], c :: rest)
    else
      let (content, after) := readText rest
      (c :: content, after)

def textToken (content : List Char) : List Token :=
  if content.isEmpty then [] else [.text (.ofList content)]

/-- The text that fills an element of the given tag, and what follows it; no text if the element
holds markup. -/
def readContent (tag : String) (s : List Char) : List Token × List Char :=
  match contentModel tag with
  | .markup => ([], s)
  | .references =>
    let (content, after) := readRaw tag.toList s
    (textToken (decodeReferences false content), after)
  | .raw =>
    let (content, after) := readRaw tag.toList s
    (textToken content, after)
  | .script =>
    let (content, after) := readScript .plain s
    (textToken content, after)
  | .endless => (textToken s, [])

/-- The tokens that markup behind a less-than sign begins with, and what follows them. -/
def readMarkup (s : List Char) : List Token × List Char :=
  match s with
  | '!' :: '-' :: '-' :: rest =>
    let (content, after) := readCommentFrom rest
    ([.comment (.ofList content)], after)
  | '!' :: rest =>
    let (content, after) := readDeclaration rest
    match dropName? "doctype".toList content with
    | some name =>
      let name := (name.dropWhile isLayoutBlank).takeWhile fun c => !isLayoutBlank c
      ([.documentType (lowerName name)], after)
    | none => ([.comment (.ofList content)], after)
  | '?' :: rest =>
    let (content, after) := readDeclaration ('?' :: rest)
    ([.comment (.ofList content)], after)
  | '/' :: '>' :: rest => ([], rest)
  | '/' :: c :: rest =>
    if isAsciiLetter c then
      let tag := lowerName ((c :: rest).takeWhile fun c => !endsTagName c)
      match readTag? s.length [] ((c :: rest).dropWhile fun c => !endsTagName c) with
      | some (_, after) => ([.finish tag], after)
      | none => ([], [])
    else
      let (content, after) := readDeclaration (c :: rest)
      ([.comment (.ofList content)], after)
  | s =>
    let tag := lowerName (s.takeWhile fun c => !endsTagName c)
    match readTag? (s.length + 1) [] (s.dropWhile fun c => !endsTagName c) with
    | some (body, after) =>
      let (content, after) := if body.isClosed then ([], after) else readContent tag after
      (.start tag body.attributes body.isClosed :: content, after)
    | none => ([], [])

/-- The tokens of a text; the fuel bounds the number of tags, comments and texts. -/
def scanFrom : Nat → List Char → List Token
  | _, [] => []
  | 0, _ :: _ => []
  | fuel + 1, c :: rest =>
    if c = '<' && beginsMarkup rest then
      let (tokens, after) := readMarkup rest
      tokens ++ scanFrom fuel after
    else
      let (content, after) := readText rest
      .text (.ofList (decodeReferences false (c :: content))) :: scanFrom fuel after

/-- A text without the byte order mark at its front. -/
def withoutMark (s : List Char) : List Char :=
  (dropLead? ['\uFEFF'] s).getD s

/-- The text of a page as it is scanned: up to two byte order marks at the front are dropped, one of
the text and one of its encoded form; line ends of every kind count as line feeds, and a null
character as a replacement character. -/
def prepared (s : List Char) : List Char :=
  (normalizeNewlines (withoutMark (withoutMark s))).map fun c =>
    if c = '\x00' then '\uFFFD' else c

/-- The tokens of the text of a page. -/
def Token.scan (s : String) : List Token :=
  let s := prepared s.toList
  scanFrom s.length s

end ScriptTypings.Markup
