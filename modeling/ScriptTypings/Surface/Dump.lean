import ScriptTypings.Entry.Encoding
import ScriptTypings.Surface.Basic

/-!
# Dump of the surface

The dump shows the surface as JSON. Members stand beside the node's own data; a member with the name
of such a datum takes its place.
-/

namespace ScriptTypings.Surface

/-- The dump of a function. -/
def dumpFunction (signatures : List Signature) : Json :=
  .object [("type", .text "function"), ("signatures", .list (signatures.map Signature.toJson))]

def dumpProperty (member : PropertyMember) : Json :=
  .object [("type", .text "property"), ("name", member.typeName),
    ("description", member.description)]

/-- What every node with a name begins with. -/
def heading (kind : String) (fullname description : Json) : List (String × Json) :=
  [("__type", .text kind), ("__fullname", fullname), ("__description", description)]

def dumpHeader (header : ClassHeader) : List (String × Json) :=
  heading (if header.isAttribute then "attribute" else "class") header.fullname
      header.description ++
    [("__extends", (header.base.map Json.text).getD .null),
      ("__interfaces", .list header.interfaces),
      ("__constructor", (header.constructor.map dumpFunction).getD .null),
      ("__constructible", .bool header.constructor.isSome),
      ("__eventTarget", .bool header.dispatchesEvents),
      ("__staticEventTarget", .bool header.dispatchesStaticEvents)]

def dumpInterface (d : InterfaceDeclaration) : Json :=
  .object
    (heading "interface" d.fullname d.description ++
      [("__extends", .list d.bases), ("typeParameters", .list d.typeParameters),
        ("methods", .object (NameMap.mapValues dumpFunction d.methods)),
        ("properties", .object (NameMap.mapValues dumpProperty d.properties))])

mutual

def dump : Surface → Json
  | space _ fullname description members =>
    .object (NameMap.update (heading "namespace" fullname description) (dumpMembers members))
  | enumeration _ fullname description members =>
    .object (NameMap.update (heading "enumeration" fullname description) (dumpMembers members))
  | cls header statics prototype =>
    .object
      (NameMap.put "prototype" (.object (dumpMembers prototype))
        (NameMap.update (dumpHeader header) (dumpMembers statics)))
  | record _ fullname description members =>
    .object
      (heading "interfaceliteral" fullname description ++
        [("members", .list (members.map Slot.toJson))])
  | delegate _ fullname description signature =>
    .object (heading "delegate" fullname description ++ [("signature", signature.toJson)])
  | interface declaration => dumpInterface declaration
  | function signatures => dumpFunction signatures
  | event handler description =>
    .object [("type", .text "event"), ("delegate", handler), ("description", description)]
  | property member => dumpProperty member
  | unresolved placeholder => .text placeholder

def dumpMembers : List (String × Surface) → List (String × Json)
  | [] => []
  | (name, node) :: members => (name, node.dump) :: dumpMembers members

end

end ScriptTypings.Surface
