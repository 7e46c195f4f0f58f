import ScriptTypings.Entry.Basic
import ScriptTypings.Json.Display

/-!
# Entries as JSON

An entry is written as an object whose member `type` tells its kind. `Entry.ofJson` reads it back;
only `type` and `camelId` are required, and the two members of a slot that name it and its type.
Lists must be there where lists are meant, but any value can stand where a text is meant.
-/

namespace ScriptTypings

/-- Why a value is no entry. -/
inductive DecodingError
  | missing (name : String)
  | unknownKind (shown : String)
  | notAnObject
  | wrongType
  | notAPair (number length : Nat)
  deriving DecidableEq, Repr

namespace DecodingError

/-- The message that goes with an error, if it has one. -/
def message? : DecodingError → Option String
  | missing name => some name
  | unknownKind shown => some ("Unknown notation type: " ++ shown)
  | notAPair number length =>
    some ("dictionary update sequence element #" ++ toString number ++ " has length " ++
      toString length ++ "; 2 is required")
  | notAnObject => none
  | wrongType => none

end DecodingError

namespace Slot

def toJson (slot : Slot) : Json :=
  .object [("key", slot.name), ("type", slot.typeName), ("description", slot.description)]

end Slot

namespace Returned

def toJson : Returned → Json
  | nothing => .null
  | marker word => .text word
  | typed typeName description => .object [("type", typeName), ("description", description)]
  | fields members description =>
    .object [("members", .list (members.map Slot.toJson)), ("description", description)]

end Returned

namespace Signature

def toJson (signature : Signature) : Json :=
  .object
    [("description", signature.description),
      ("parameters", .list (signature.parameters.map Slot.toJson)),
      ("return", signature.returned.toJson),
      ("codeSnippets", .object signature.snippets),
      ("typeParameters", .list signature.typeParameters)]

end Signature

namespace Content

/-- The word for the kind of an entry. -/
def kind : Content → String
  | cls _ isAttribute => if isAttribute then "attribute" else "class"
  | enumeration => "enumeration"
  | space _ => "namespace"
  | interface _ => "interface"
  | record _ => "structure"
  | delegate _ => "delegate"
  | function _ => "function"
  | event _ => "event"
  | property _ => "property"

/-- The members that belong to one kind of entry only. -/
def fields : Content → List (String × Json)
  | cls interfaces _ => [("interfaces", .list interfaces)]
  | enumeration => []
  | space listing =>
    [("members", .object
      [("structures", .list listing.structures), ("delegates", .list listing.delegates),
        ("interfaces", .list listing.interfaces)])]
  | interface listing =>
    [("interfaces", .list listing.bases), ("typeParameters", .list listing.typeParameters),
      ("members", .object
        [("methods", .list listing.methods), ("properties", .list listing.properties)]),
      ("extensions", .list listing.extensions)]
  | record members => [("members", .list (members.map Slot.toJson))]
  | delegate signature => [("signature", signature.toJson)]
  | function signatures => [("signatures", .list (signatures.map Signature.toJson))]
  | event handler => [("delegate", handler)]
  | property typeName => [("name", typeName)]

end Content

namespace Entry

def toJson (entry : Entry) : Json :=
  .object
    ([("type", .text entry.content.kind), ("description", entry.description),
      ("camelId", entry.identifier)] ++ entry.content.fields)

end Entry

namespace Decoding

/-- The members of an object that is read by name. -/
def members : Json → Except DecodingError (List (String × Json))
  | .object members => .ok members
  | _ => .error .notAnObject

/-- The members of an object whose parts are required. -/
def parts : Json → Except DecodingError (List (String × Json))
  | .object members => .ok members
  | _ => .error .wrongType

def required (name : String) (members : List (String × Json)) : Except DecodingError Json :=
  match NameMap.find? name members with
  | some value => .ok value
  | none => .error (.missing name)

/-- The value of a member, or the empty text. -/
def valueOf (name : String) (members : List (String × Json)) : Json :=
  (NameMap.find? name members).getD (.text "")

/-- The items of a list; a text counts as the list of its characters, and an object as the list of
its names. -/
def items : Json → Except DecodingError (List Json)
  | .list values => .ok values
  | .text s => .ok (s.toList.map fun c => .text (String.singleton c))
  | .object members => .ok (members.map fun member => .text member.1)
  | _ => .error .wrongType

/-- The items of a member, or no items. -/
def itemsOf (name : String) (members : List (String × Json)) : Except DecodingError (List Json) :=
  match NameMap.find? name members with
  | some value => items value
  | none => .ok []

/-- The members of a member, or none. -/
def membersOf (name : String) (ms : List (String × Json)) :
    Except DecodingError (List (String × Json)) :=
  match NameMap.find? name ms with
  | some value => members value
  | none => .ok []

/-- The name that a value becomes in an object; lists and objects are no names. -/
def nameOf : Json → Except DecodingError String
  | .text s => .ok s
  | .null => .ok "null"
  | .bool value => .ok (if value then "true" else "false")
  | .whole n => .ok (toString n)
  | .real x => .ok (x.text "Infinity" "NaN")
  | _ => .error .wrongType

/-- Sets the pairs that some items are, which are counted from the given number on. -/
def pairsFrom (number : Nat) (found : NameMap Json) :
    List Json → Except DecodingError (NameMap Json)
  | [] => .ok found
  | item :: rest => do
    match ← items item with
    | [name, value] => pairsFrom (number + 1) (NameMap.put (← nameOf name) value found) rest
    | others => .error (.notAPair number others.length)

/-- The object that a value is, or that the pairs in it make up. -/
def pairs : Json → Except DecodingError (NameMap Json)
  | .object members => .ok members
  | value => do pairsFrom 0 [] (← items value)

/-- The code samples by language. -/
def snippetsOf (ms : List (String × Json)) : Except DecodingError (NameMap Json) :=
  match NameMap.find? "codeSnippets" ms with
  | some value => pairs value
  | none => .ok []

end Decoding

open Decoding

def Slot.ofJson (value : Json) : Except DecodingError Slot := do
  let members ← parts value
  let name ← required "key" members
  let typeName ← required "type" members
  return { name, typeName, description := valueOf "description" members }

def Returned.ofJson : Json → Except DecodingError Returned
  | .null => .ok .nothing
  | .text word => .ok (.marker word)
  | value => do
    let ms ← parts value
    match NameMap.find? "members" ms with
    | some slots => return .fields (← (← items slots).mapM Slot.ofJson) (valueOf "description" ms)
    | none => return .typed (← required "type" ms) (valueOf "description" ms)

def Signature.ofJson (value : Json) : Except DecodingError Signature := do
  let ms ← members value
  let parameters ← (← itemsOf "parameters" ms).mapM Slot.ofJson
  let returned ← Returned.ofJson ((NameMap.find? "return" ms).getD .null)
  let snippets ← snippetsOf ms
  let typeParameters ← itemsOf "typeParameters" ms
  return { description := valueOf "description" ms, parameters, returned, snippets, typeParameters }

def NamespaceListing.ofMembers (ms : List (String × Json)) :
    Except DecodingError NamespaceListing := do
  let listed ← membersOf "members" ms
  let structures ← itemsOf "structures" listed
  let delegates ← itemsOf "delegates" listed
  let interfaces ← itemsOf "interfaces" listed
  return { structures, delegates, interfaces }

def InterfaceListing.ofMembers (ms : List (String × Json)) :
    Except DecodingError InterfaceListing := do
  let bases ← itemsOf "interfaces" ms
  let typeParameters ← itemsOf "typeParameters" ms
  let listed ← membersOf "members" ms
  let methods ← itemsOf "methods" listed
  let properties ← itemsOf "properties" listed
  let extensions ← itemsOf "extensions" ms
  return { bases, typeParameters, methods, properties, extensions }

/-- Reads what belongs to one kind of entry only. -/
def Content.ofJson (kind : Json) (ms : List (String × Json)) : Except DecodingError Content := do
  match kind with
  | .text "class" => return .cls (← itemsOf "interfaces" ms) false
  | .text "attribute" => return .cls (← itemsOf "interfaces" ms) true
  | .text "enumeration" => return .enumeration
  | .text "namespace" => return .space (← NamespaceListing.ofMembers ms)
  | .text "interface" => return .interface (← InterfaceListing.ofMembers ms)
  | .text "structure" => return .record (← (← itemsOf "members" ms).mapM Slot.ofJson)
  | .text "delegate" =>
    return .delegate (← Signature.ofJson ((NameMap.find? "signature" ms).getD (.object [])))
  | .text "function" => return .function (← (← itemsOf "signatures" ms).mapM Signature.ofJson)
  | .text "event" => return .event (valueOf "delegate" ms)
  | .text "property" => return .property (valueOf "name" ms)
  | .list _ => throw .wrongType
  | .object _ => throw .wrongType
  | other => throw (.unknownKind other.display)

def Entry.ofJson (value : Json) : Except DecodingError Entry := do
  let ms ← parts value
  let kind ← required "type" ms
  let identifier ← required "camelId" ms
  let content ← Content.ofJson kind ms
  return { identifier, description := valueOf "description" ms, content }

end ScriptTypings
