import ScriptTypings.Markup.DefinitionList
import ScriptTypings.Text.Quoted

/-!
# Pages that cannot be read

A `PageError` says in which way a page differs from the template that its title promises.
-/

namespace ScriptTypings

inductive PageError
  | unknownTitle (title : String)
  | missingFrame
  | typeLead
  | elementInType (tag : String)
  | definitionList (error : Markup.DefinitionListError)
  | snippetWithoutLanguage
  | rowWithoutLink
  | missingParameters
  | parameterFormat
  | undefinedParameter (name : String)
  | untypedParameter (name : String)
  | enumerationFormat
  | missingValue
  | missingConstructorMark
  | undottedIdentifier (id : String)
  | missingSnippet (language : String)
  | eventSyntax
  | missingEventTable
  | eventTableShape
  | missingEventType (language : String)
  | missingMembers
  | fieldColumns
  | fieldNames
  deriving DecidableEq, Repr

namespace PageError

def message : PageError → String
  | unknownTitle title => "Unrecognized document title: " ++ Text.quote title
  | missingFrame => "Missing title or mainSection element"
  | typeLead => "Incorrect type description"
  | elementInType tag => "Unexpected element in type notation: <" ++ tag ++ ">"
  | definitionList .strayText => "Unexpected text in definition list"
  | definitionList (.strayElement tag) => "Unexpected element in definition list: <" ++ tag ++ ">"
  | definitionList .definitionFirst => "Definition without a preceding term"
  | snippetWithoutLanguage => "CODESNIPPET element does not have 'language' attribute"
  | rowWithoutLink => "Member table row without a hyperlink"
  | missingParameters => "Missing parameter list"
  | parameterFormat => "Unexpected parameter list format"
  | undefinedParameter name => "Parameter " ++ Text.quote name ++ " has no definition"
  | untypedParameter name => "Parameter " ++ Text.quote name ++ " has no type notation"
  | enumerationFormat => "Unexpected enumeration document format"
  | missingValue => "Missing property value"
  | missingConstructorMark => "Expected .#ctor but not found"
  | undottedIdentifier id => "Incorrect help ID: " ++ id
  | missingSnippet language => "No " ++ language ++ " code snippet"
  | eventSyntax => "Expected both event listener/onevent syntax but not found"
  | missingEventTable => "Missing event information table"
  | eventTableShape => "Unexpected event information table shape"
  | missingEventType language => "Expected " ++ language ++ " type but not found"
  | missingMembers => "Missing Members section"
  | fieldColumns => "Unexpected structure member column count"
  | fieldNames => "Unexpected name numbers"

end PageError

end ScriptTypings
