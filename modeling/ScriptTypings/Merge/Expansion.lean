import ScriptTypings.Merge.Event

/-!
# Declaring structural types

Structures, delegates and interfaces exist in signatures only. `Reference.declare?` turns the entry
of one into a declaration. An interface's members are looked up in the corpus, together with those
of its extensions; overloads that share a name become one method.
-/

namespace ScriptTypings

/-- A member that an interface or one of its extensions lists. -/
inductive InterfacePart
  | method (name : String) (signatures : List Signature)
  | property (name : String) (member : PropertyMember)
  | unknownMethod (id : String)
  | unknownProperty (id : String)
  deriving DecidableEq

namespace InterfacePart

def mentions : InterfacePart → List String
  | method _ signatures => signatures.flatMap Signature.mentions
  | property _ member => member.typeName.mentions
  | _ => []

end InterfacePart

namespace InterfaceDeclaration

/-- Adds signatures to the method of the given name. -/
def addMethod (d : InterfaceDeclaration) (name : String) (signatures : List Signature) :
    InterfaceDeclaration :=
  let before := (NameMap.find? name d.methods).getD []
  { d with methods := NameMap.put name (before ++ signatures) d.methods }

def addPart (d : InterfaceDeclaration) : InterfacePart → InterfaceDeclaration
  | .method name signatures => d.addMethod name signatures
  | .property name member => { d with properties := NameMap.put name member d.properties }
  | _ => d

end InterfaceDeclaration

namespace Reference

/-- The name that scripts use for a member. -/
def memberName (id : String) : String :=
  Identifier.camelCase (Identifier.lastSegment id)

def methodPart (r : Reference) (id : String) : InterfacePart :=
  match r.corpus.function? id with
  | some signatures => .method (memberName id) (signatures.map r.qualifySignature)
  | none => .unknownMethod id

def qualifyProperty (r : Reference) (typeName description : Json) : PropertyMember :=
  { typeName := r.qualify typeName, description }

def propertyPart (r : Reference) (id : String) : InterfacePart :=
  match r.corpus.get? id with
  | some ⟨_, description, .property typeName⟩ =>
    .property (memberName id) (r.qualifyProperty typeName description)
  | _ => .unknownProperty id

/-- Looks up the type of a method that an interface lists; one without entry is noted. -/
def methodTrace (r : Reference) (id : Json) : MergeTrace :=
  Trace.use id ++
    match r.corpus.function? id.asText with
    | some signatures => r.signaturesTrace signatures
    | none => Trace.step (.note ("Interface method " ++ id.asText ++ " is not in the corpus"))

/-- Looks up the type of a property that an interface lists; one without entry is noted. -/
def propertyTrace (r : Reference) (id : Json) : MergeTrace :=
  Trace.use id ++
    match r.corpus.get? id.asText with
    | some ⟨_, _, .property typeName⟩ => r.typeTrace typeName
    | _ => Trace.step (.note ("Interface property " ++ id.asText ++ " is not in the corpus"))

/-- The listings of an interface and of those of its extensions that are interfaces. -/
def family (r : Reference) (listing : InterfaceListing) : List InterfaceListing :=
  listing :: listing.extensions.filterMap fun id => r.corpus.interface? id.asText

/-- The members of an interface and its extensions, methods before properties in each of them. -/
def interfaceParts (r : Reference) (listing : InterfaceListing) : List InterfacePart :=
  (r.family listing).flatMap fun source =>
    source.methods.map (fun id => r.methodPart id.asText) ++
      source.properties.map fun id => r.propertyPart id.asText

/-- The steps of expanding an interface. -/
def interfaceTrace (r : Reference) (listing : InterfaceListing) : MergeTrace :=
  r.typesTrace listing.bases ++ listing.extensions.flatMap Trace.use ++
    (r.family listing).flatMap fun source =>
      source.methods.flatMap r.methodTrace ++ source.properties.flatMap r.propertyTrace

/-- The declaration of an interface without its members. -/
def interfaceFrame (r : Reference) (name : String) (entry : Entry) (listing : InterfaceListing) :
    InterfaceDeclaration :=
  { name, fullname := entry.identifier, description := entry.description,
    bases := listing.bases.map r.qualify, typeParameters := listing.typeParameters }

def expandInterface (r : Reference) (name : String) (entry : Entry) (listing : InterfaceListing) :
    InterfaceDeclaration :=
  (r.interfaceParts listing).foldl .addPart (r.interfaceFrame name entry listing)

/-- A declaration, the type names that it mentions in the order of the pages, and the steps that
lead to it. -/
structure Declared where
  node : Surface
  mentions : List String
  trace : MergeTrace

/-- The declaration of a structural type; other entries have none. -/
def declare? (r : Reference) (name : String) (entry : Entry) : Option Declared :=
  match entry.content with
  | .record members =>
    let node := Surface.record name entry.identifier entry.description
      (members.map r.qualifySlot)
    some
      { node, mentions := node.mentions,
        trace := members.flatMap fun slot => r.typeTrace slot.typeName }
  | .delegate signature =>
    let node := Surface.delegate name entry.identifier entry.description
      (r.qualifySignature signature)
    some { node, mentions := node.mentions, trace := r.signatureTrace signature }
  | .interface listing =>
    let frame := r.interfaceFrame name entry listing
    let parts := r.interfaceParts listing
    some
      { node := .interface (r.expandInterface name entry listing)
        mentions := frame.bases.flatMap Json.mentions ++ parts.flatMap InterfacePart.mentions
        trace := r.interfaceTrace listing }
  | _ => none

end Reference

end ScriptTypings
