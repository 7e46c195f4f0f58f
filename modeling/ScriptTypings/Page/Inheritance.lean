import ScriptTypings.NameMap
import ScriptTypings.Text.Classes
import ScriptTypings.TypeText

/-!
# Base types in syntax samples

A syntax sample of a type names its bases behind a colon, up to the body or the first constraint.
`bases` reads them from the first sample of a language that spells out the clause.
-/

namespace ScriptTypings.Inheritance

open Text TypeText

/-- The languages whose samples spell out the clause, in order of preference. -/
def languages : List String := ["C#", "C++"]

/-- Bases that every type has. -/
def rootBases : List String :=
  ["Object", "System.Object", "Platform.Object", "Attribute", "System.Attribute"]

/-- The words that begin the declaration of a type. -/
def declarators : List (List Char) :=
  ["class".toList, "interface".toList, "struct".toList]

/-- Writes the scope marks `::` as dots. -/
def dotScopes : List Char → List Char
  | ':' :: ':' :: rest => '.' :: dotScopes rest
  | c :: rest => c :: dotScopes rest
  | [] => []

def beginsWithWord : List Char → Bool
  | c :: _ => isWord c
  | [] => false

/-- The text behind a declarator that stands at the front as a whole word. -/
def afterDeclarator? (s : List Char) : Option (List Char) :=
  declarators.findSome? fun word =>
    (dropLead? word s).filter fun rest => !beginsWithWord rest

/-- The text behind the first declarator; the flag tells that a word character stands before. -/
def declaration? : Bool → List Char → Option (List Char)
  | _, [] => none
  | inWord, c :: rest =>
    match if inWord then none else afterDeclarator? (c :: rest) with
    | some after => some after
    | none => declaration? (isWord c) rest

/-- The names in the clause of a declaration; none without a colon. -/
def clauseBases (declaration : List Char) : List String :=
  match splitAt? [':'] (upTo ['\x7b'] declaration) with
  | none => []
  | some (_, clause) =>
    let clause := upTo " where ".toList (oneLine (':' :: clause))
    ((splitInterfaceList clause).map String.ofList).filter fun name => !rootBases.contains name

/-- The declaration in the sample of a language, if there is one. -/
def sampleDeclaration? (snippets : NameMap String) (language : String) : Option (List Char) :=
  match NameMap.find? language snippets with
  | some code => declaration? false (dotScopes code.toList)
  | none => none

/-- The bases that the samples of a type declare. -/
def bases (snippets : NameMap String) : List String :=
  match languages.findSome? (sampleDeclaration? snippets) with
  | some declaration => clauseBases declaration
  | none => []

end ScriptTypings.Inheritance
