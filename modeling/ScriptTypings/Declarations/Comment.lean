import ScriptTypings.Declarations.Name
import ScriptTypings.Entry.Basic
import ScriptTypings.Trace

/-!
# Comments

Descriptions become documentation comments. Inside one, the mark that would end it is written with a
backslash between its characters. Traces tell where writing stops at a value that is no text.
-/

namespace ScriptTypings.Declarations

/-- Writes every end mark so that it ends no comment. -/
def escapeChars : List Char → List Char
  | '*' :: '/' :: rest => '*' :: '\\' :: '/' :: escapeChars rest
  | c :: rest => c :: escapeChars rest
  | [] => []

def escape (text : String) : String :=
  .ofList (escapeChars text.toList)

/-- The steps of writing: warnings, and where writing stops. -/
abbrev WritingTrace := Trace String

/-- The comment for a description, if there is one. -/
def docComment (description : Json) : List String :=
  if description.isEmpty then [] else ["/** " ++ escape description.asText ++ " */"]

def parameterTag? (slot : Slot) : Option String :=
  if slot.description.isEmpty then none
  else
    some ("@param " ++ parameterName slot.name.asText ++ " " ++ escape slot.description.asText)

def parameterTagTrace (slot : Slot) : WritingTrace :=
  if slot.description.isEmpty then [] else Trace.combine slot.name ++ Trace.use slot.description

/-- The description of a result; one without a type has none. -/
def resultDescription : Returned → Json
  | .typed _ description => description
  | .fields _ description => description
  | _ => ""

def returnTag? (returned : Returned) : Option String :=
  let description := resultDescription returned
  if description.isEmpty then none else some ("@return " ++ escape description.asText)

/-- The comment for a signature: on one line unless a parameter or the result is described. -/
def signatureComment (signature : Signature) : List String :=
  let tags := signature.parameters.filterMap parameterTag? ++
    (returnTag? signature.returned).toList
  if tags.isEmpty then docComment signature.description
  else
    let description :=
      if signature.description.isEmpty then []
      else [" * " ++ escape signature.description.asText]
    "/**" :: description ++ tags.map (" * " ++ ·) ++ [" */"]

def signatureCommentTrace (signature : Signature) : WritingTrace :=
  signature.parameters.flatMap parameterTagTrace ++
    Trace.useFilled (resultDescription signature.returned) ++
    Trace.useFilled signature.description

end ScriptTypings.Declarations
