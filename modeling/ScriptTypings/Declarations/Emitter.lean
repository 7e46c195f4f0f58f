import ScriptTypings.Declarations.Signature
import ScriptTypings.Surface.Basic
import ScriptTypings.Text.Blank

/-!
# Declarations of the surface

Every node of the surface is written as a list of lines; `declarationText?` puts the lines of the
root behind a header. `emitTrace` follows the writing: it warns of event members with odd names, and
tells where a value that is no text stops it.
-/

namespace ScriptTypings.Declarations

open Text

def indentLine (line : String) : String :=
  if line = "" then line else "    " ++ line

def indent (lines : List String) : List String :=
  lines.map indentLine

/-- A block with a documented opening line. -/
def block (description : Json) (opening : String) (body : List String) : List String :=
  docComment description ++ (opening ++ " \x7b") :: indent body ++ ["\x7d"]

/-- A described line of the form `name: type`, with words before the name. -/
def typedLine (table : ArityTable) (lead name : String) (description type : Json) : List String :=
  docComment description ++ [lead ++ name ++ ": " ++ typeName table type.asText ++ ";"]

/-- The steps of writing a described line: the description, then the type. -/
def typedTrace (table : ArityTable) (description type : Json) : WritingTrace :=
  Trace.useFilled description ++ typeTrace table type

def recordLines (table : ArityTable) (name : String) (description : Json) (members : List Slot) :
    List String :=
  block description ("interface " ++ name)
    (members.flatMap fun m =>
      typedLine table "" (memberName m.name.asText) m.description m.typeName)

def recordTrace (table : ArityTable) (description : Json) (members : List Slot) : WritingTrace :=
  Trace.useFilled description ++
    members.flatMap fun m => Trace.useFilled m.description ++ slotTrace table m

/-- The type parameters behind a name, if there are any. -/
def typeParametersText (parameters : List Json) : String :=
  applied "" (parameters.map Json.asText)

def delegateLines (table : ArityTable) (name : String) (description : Json)
    (signature : Signature) : List String :=
  let folded := foldOutputs signature
  docComment description ++
    ["type " ++ name ++ typeParametersText folded.typeParameters ++ " = (" ++
      parametersText table folded.parameters ++ ") => " ++ resultText table "" folded.returned ++
      ";"]

def delegateTrace (table : ArityTable) (description : Json) (signature : Signature) :
    WritingTrace :=
  let folded := foldOutputs signature
  foldTrace signature ++ folded.typeParameters.flatMap Trace.combine ++
    folded.parameters.flatMap (slotTrace table) ++ Trace.useFilled description ++
    resultTrace table folded.returned

/-- A clause that lists types behind a word, if there are any. -/
def clause (table : ArityTable) (word : String) (types : List Json) : String :=
  if types.isEmpty then ""
  else " " ++ word ++ " " ++ join ", " (types.map fun type => typeName table type.asText)

def interfaceLines (table : ArityTable) (d : InterfaceDeclaration) : List String :=
  block d.description
    ("interface " ++ d.name ++ typeParametersText d.typeParameters ++
      clause table "extends" d.bases)
    ((d.properties.flatMap fun p =>
        typedLine table "" (memberName p.1) p.2.description p.2.typeName) ++
      d.methods.flatMap fun m => signatureLines table "" (memberName m.1) m.2)

def interfaceTrace (table : ArityTable) (d : InterfaceDeclaration) : WritingTrace :=
  Trace.useFilled d.description ++ d.typeParameters.flatMap Trace.combine ++
    d.bases.flatMap (typeTrace table) ++
    d.properties.flatMap (fun p => typedTrace table p.2.description p.2.typeName) ++
    d.methods.flatMap fun m => signaturesTrace table "" (memberName m.1) m.2

/-- The first type argument of the vector interface that a class implements; the read-only one is
preferred. -/
def elementType? (table : ArityTable) (interfaces : List Json) : Option String :=
  ["IVectorView", "IVector"].findSome? fun wanted =>
    interfaces.findSome? fun type =>
      let g := TypeText.splitGeneric type.asText.toList
      if Identifier.lastSegment (.ofList g.1) = wanted then
        g.2.head?.map fun argument => typeName table (.ofList argument)
      else none

/-- The index functions of a class that is a vector of the given elements. -/
def indexLines (element : String) : List String :=
  ["indexOf(value: " ++ element ++
      ", ...extra: any[]): \x7b index: number; returnValue: boolean; \x7d; /* hack */",
    "indexOf(searchElement: " ++ element ++ ", fromIndex?: number): number; /* hack */"]

/-- The functions that add and remove listeners. -/
def listenerNames : List String := ["addEventListener", "removeEventListener"]

def listenerLine (lead name eventType handler : String) : String :=
  lead ++ name ++ "(type: " ++ eventType ++ ", listener: " ++ handler ++ "): void;"

/-- The listener functions for the events among some members, and those for all other events. -/
def listenerLines (table : ArityTable) (lead : String) (members : List (String × Surface)) :
    List String :=
  (members.flatMap fun
    | (name, .event handler _) =>
      listenerNames.map fun function =>
        listenerLine lead function ("\x22" ++ eventName name ++ "\x22")
          (typeName table handler.asText)
    | _ => []) ++
    listenerNames.map fun function =>
      listenerLine lead function "string" "Windows.Foundation.EventHandler<any>"

/-- The steps of writing listener functions: each event's name is looked at, then its handler. -/
def listenerTrace (table : ArityTable) (members : List (String × Surface)) : WritingTrace :=
  members.flatMap fun
    | (name, .event handler _) =>
      (eventWarning? name).toList.flatMap Trace.step ++ typeTrace table handler
    | _ => []

/-- The lines of a class member. -/
def classMemberLines (table : ArityTable) (lead name : String) (node : Surface) : List String :=
  let key := memberName name
  match node with
  | .function signatures => signatureLines table lead key signatures
  | .property member => typedLine table lead key member.description member.typeName
  | .event handler description => typedLine table lead key description handler
  | .unresolved placeholder => [lead ++ key ++ ": " ++ placeholderType placeholder ++ ";"]
  | _ => [lead ++ key ++ ": any;"]

def classMemberTrace (table : ArityTable) (lead name : String) : Surface → WritingTrace
  | .function signatures => signaturesTrace table lead (memberName name) signatures
  | .property member => typedTrace table member.description member.typeName
  | .event handler description => typedTrace table description handler
  | _ => []

/-- The element type of a class that is an array, if it is known. -/
def classElement? (table : ArityTable) (header : ClassHeader) : Option String :=
  if header.base = some "Array" then elementType? table header.interfaces else none

def classOpening (table : ArityTable) (header : ClassHeader) : String :=
  let base :=
    match header.base with
    | none => ""
    | some base =>
      if base = "Array" then
        " extends Array<" ++ ((classElement? table header).filter (· ≠ "")).getD "any" ++ ">"
      -- every class extends `Object` anyway
      else if base = "" || base = "Object" then ""
      else " extends " ++ base
  "class " ++ header.name ++ base ++ clause table "implements" header.interfaces

/-- The lines between the braces of a class. -/
def classBody (table : ArityTable) (header : ClassHeader)
    (statics prototype : List (String × Surface)) : List String :=
  let element := classElement? table header
  (match header.constructor with
    | some signatures => signatureLines table "" "constructor" signatures
    | none => []) ++
  ((statics.filter fun m => !m.2.isNested).flatMap fun m =>
    classMemberLines table "static " m.1 m.2) ++
  (if header.dispatchesStaticEvents then listenerLines table "static " statics else []) ++
  -- the index functions of a vector take the place of a reflected one
  (element.map indexLines).getD [] ++
  ((prototype.filter fun m => !(element.isSome && m.1 = "indexOf")).flatMap fun m =>
    classMemberLines table "" m.1 m.2) ++
  (if header.dispatchesEvents then listenerLines table "" prototype else [])

/-- The steps of writing the opening line and the body of a class. -/
def classTrace (table : ArityTable) (header : ClassHeader)
    (statics prototype : List (String × Surface)) : WritingTrace :=
  let element := classElement? table header
  header.interfaces.flatMap (typeTrace table) ++
  (match header.constructor with
    | some signatures => signaturesTrace table "" "constructor" signatures
    | none => []) ++
  ((statics.filter fun m => !m.2.isNested).flatMap fun m =>
    classMemberTrace table "static " m.1 m.2) ++
  (if header.dispatchesStaticEvents then listenerTrace table statics else []) ++
  ((prototype.filter fun m => !(element.isSome && m.1 = "indexOf")).flatMap fun m =>
    classMemberTrace table "" m.1 m.2) ++
  (if header.dispatchesEvents then listenerTrace table prototype else [])

/-- The lines of an enumeration's members. -/
def enumerationBody (members : List (String × Surface)) : List String :=
  members.flatMap fun
    | (name, .property member) => docComment member.description ++ [memberName name ++ ","]
    | (name, _) => [memberName name ++ ","]

mutual

/-- The lines of a namespace member. -/
def emit (table : ArityTable) (name : String) : Surface → List String
  | .space own _ description members =>
    block description ("namespace " ++ own) (emitMembers table members)
  | .enumeration own _ description members =>
    block description ("enum " ++ own) (enumerationBody members)
  | .cls header statics prototype =>
    block header.description (classOpening table header)
      (classBody table header statics prototype) ++
      if statics.any fun m => m.2.isNested then
        ("namespace " ++ header.name ++ " \x7b") :: indent (emitNested table statics) ++ ["\x7d"]
      else []
  | .record own _ description members => recordLines table own description members
  | .delegate own _ description signature => delegateLines table own description signature
  | .interface declaration => interfaceLines table declaration
  | .function signatures => signatureLines table "function " name signatures
  | .event handler description => typedLine table "var " name description handler
  | .property member => typedLine table "var " name member.description member.typeName
  | .unresolved placeholder => ["var " ++ name ++ ": " ++ placeholderType placeholder ++ ";"]

/-- The lines of all members of a namespace. -/
def emitMembers (table : ArityTable) : List (String × Surface) → List String
  | [] => []
  | (name, node) :: members => emit table name node ++ emitMembers table members

/-- The lines of the nested members of a class. -/
def emitNested (table : ArityTable) : List (String × Surface) → List String
  | [] => []
  | (name, node) :: members =>
    (if node.isNested then emit table name node else []) ++ emitNested table members

end

/-- The steps of writing an enumeration's members. -/
def enumerationTrace (members : List (String × Surface)) : WritingTrace :=
  members.flatMap fun
    | (_, .property member) => Trace.useFilled member.description
    | _ => []

mutual

/-- The steps of writing a namespace member. -/
def emitTrace (table : ArityTable) (name : String) : Surface → WritingTrace
  | .space _ _ description members =>
    Trace.useFilled description ++ emitMembersTrace table members
  | .enumeration _ _ description members =>
    Trace.useFilled description ++ enumerationTrace members
  | .cls header statics prototype =>
    classTrace table header statics prototype ++ Trace.useFilled header.description ++
      emitNestedTrace table statics
  | .record _ _ description members => recordTrace table description members
  | .delegate _ _ description signature => delegateTrace table description signature
  | .interface declaration => interfaceTrace table declaration
  | .function signatures => signaturesTrace table "function " name signatures
  | .event handler description => typedTrace table description handler
  | .property member => typedTrace table member.description member.typeName
  | .unresolved _ => []

def emitMembersTrace (table : ArityTable) : List (String × Surface) → WritingTrace
  | [] => []
  | (name, node) :: members => emitTrace table name node ++ emitMembersTrace table members

def emitNestedTrace (table : ArityTable) : List (String × Surface) → WritingTrace
  | [] => []
  | (name, node) :: members =>
    (if node.isNested then emitTrace table name node else []) ++ emitNestedTrace table members

end

/-- Lines as text, each with its end. -/
def linesText (lines : List String) : String :=
  lines.foldl (fun text line => text ++ line ++ "\r\n") ""

/-- The name under which a single node is declared. -/
def nodeName (name : String) (node : Surface) : String :=
  if name = "" then node.ownName else name

/-- The declarations of a single node. -/
def nodeText (table : ArityTable) (name : String) (node : Surface) : String :=
  linesText (emit table (nodeName name node) node)

def nodeTrace (table : ArityTable) (name : String) (node : Surface) : WritingTrace :=
  emitTrace table (nodeName name node) node

/-- The members of a node that can be the root of a declaration file. -/
def rootParts? : Surface → Option (String × Json × List (String × Surface))
  | .space name _ description members => some (name, description, members)
  | .enumeration name _ description members => some (name, description, members)
  | _ => none

/-- The lines of the root as an ambient namespace. -/
def rootLines (table : ArityTable) (name : String) (description : Json)
    (members : List (String × Surface)) : List String :=
  block description ("declare namespace " ++ name) (emitMembers table members)

/-- The steps of writing a root, whatever its kind. -/
def rootTrace (table : ArityTable) (root : Surface) : WritingTrace :=
  match rootParts? root with
  | some (_, description, members) =>
    Trace.useFilled description ++ emitMembersTrace table members
  | none => []

/-- The header with the line ends of the declarations and a blank line behind it. -/
def headerText (header : String) : String :=
  if header = "" then ""
  else linesText ((splitLines header.toList).map String.ofList) ++ "\r\n"

/-- The declaration file for a root: the header, then the root's declarations. A node that has no
members is no root. -/
def declarationText? (table : ArityTable) (header : String) (root : Surface) : Option String :=
  (rootParts? root).map fun (name, description, members) =>
    headerText header ++ linesText (rootLines table name description members)

end ScriptTypings.Declarations
