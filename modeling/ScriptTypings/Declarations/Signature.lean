import ScriptTypings.Declarations.Comment
import ScriptTypings.Declarations.TypeName

/-!
# Signatures in declarations

`foldOutputs` moves the output parameters of a signature into its result. `signatureLines` writes
each distinct overload of a function on a line of its own, behind its comment. Traces tell where
writing stops at a value that is no text.
-/

namespace ScriptTypings.Declarations

open Text

/-- The name of the function's own result among the fields of a folded one. -/
def ownResult : String := "returnValue"

/-- The function's own result as a field, if it has a type. -/
def resultField? : Returned → Option Slot
  | .typed typeName description => some { name := ownResult, typeName, description }
  | _ => none

/-- The result that holds some output parameters beside the function's own one. -/
def foldedResult (outputs : List Slot) (own : Returned) : Returned :=
  match outputs, own with
  | [output], .nothing => .typed output.typeName output.description
  | _, _ => .fields (outputs ++ (resultField? own).toList) ""

/-- The signature with its output parameters as part of the result. -/
def foldOutputs (signature : Signature) : Signature :=
  let outputs := (signature.parameters.filter fun p => isOutput p.name.asText).map fun p =>
    { p with name := withoutMark p.name.asText }
  if outputs.isEmpty then signature
  else
    { signature with
      parameters := signature.parameters.filter fun p => !isOutput p.name.asText
      returned := foldedResult outputs signature.returned }

/-- The steps of folding: every parameter name is searched for its mark. -/
def foldTrace (signature : Signature) : WritingTrace :=
  signature.parameters.flatMap fun p => Trace.combine p.name

/-- A slot as a member of an anonymous type. -/
def fieldText (table : ArityTable) (slot : Slot) : String :=
  memberName slot.name.asText ++ ": " ++ typeName table slot.typeName.asText ++ ";"

/-- The steps of writing a slot: its name, then its type. -/
def slotTrace (table : ArityTable) (slot : Slot) : WritingTrace :=
  Trace.combine slot.name ++ typeTrace table slot.typeName

/-- The type of a result; that of a function named as asynchronous is a promise. -/
def resultText (table : ArityTable) (name : String) : Returned → String
  | .typed type _ =>
    if endsWith name.toList "Async".toList then promiseType table type.asText
    else typeName table type.asText
  | .fields members _ => "\x7b " ++ join " " (members.map (fieldText table)) ++ " \x7d"
  | _ => "void"

def resultTrace (table : ArityTable) : Returned → WritingTrace
  | .typed type _ => typeTrace table type
  | .fields members _ => members.flatMap (slotTrace table)
  | _ => []

def parameterText (table : ArityTable) (slot : Slot) : String :=
  parameterName slot.name.asText ++ ": " ++ typeName table slot.typeName.asText

def parametersText (table : ArityTable) (parameters : List Slot) : String :=
  join ", " (parameters.map (parameterText table))

/-- The line of an overload whose outputs are folded; a constructor has no result type. -/
def overloadLine (table : ArityTable) (lead name : String) (signature : Signature) : String :=
  let call := lead ++ name ++ "(" ++ parametersText table signature.parameters ++ ")"
  if signature.returned = .newInstance then call ++ ";"
  else call ++ ": " ++ resultText table name signature.returned ++ ";"

/-- The steps of writing the line of an overload whose outputs are folded. -/
def overloadTrace (table : ArityTable) (signature : Signature) : WritingTrace :=
  signature.parameters.flatMap (slotTrace table) ++ resultTrace table signature.returned

/-- The lines of overloads, without those whose line is among the lines written before. -/
def overloadLines (table : ArityTable) (lead name : String) :
    List String → List Signature → List String
  | _, [] => []
  | written, signature :: signatures =>
    let folded := foldOutputs signature
    let line := overloadLine table lead name folded
    if written.contains line then overloadLines table lead name written signatures
    else
      signatureComment folded ++ line :: overloadLines table lead name (line :: written) signatures

/-- The steps of writing overloads; a line that was written before has no comment. -/
def overloadsTrace (table : ArityTable) (lead name : String) :
    List String → List Signature → WritingTrace
  | _, [] => []
  | written, signature :: signatures =>
    let folded := foldOutputs signature
    let line := overloadLine table lead name folded
    foldTrace signature ++ overloadTrace table folded ++
      if written.contains line then overloadsTrace table lead name written signatures
      else
        signatureCommentTrace folded ++ overloadsTrace table lead name (line :: written) signatures

/-- The lines of a function. One without signatures takes and gives anything. -/
def signatureLines (table : ArityTable) (lead name : String) (signatures : List Signature) :
    List String :=
  if signatures.isEmpty then [lead ++ name ++ "(...args: any[]): any;"]
  else overloadLines table lead name [] signatures

def signaturesTrace (table : ArityTable) (lead name : String) (signatures : List Signature) :
    WritingTrace :=
  overloadsTrace table lead name [] signatures

end ScriptTypings.Declarations
