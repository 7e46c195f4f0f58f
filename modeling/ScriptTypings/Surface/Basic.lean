import ScriptTypings.Entry.Basic

/-!
# The script surface

A `Surface` is the tree of everything that scripts can reach, joined with what the reference pages
say about it: namespaces, enumerations and classes with their members, and the structures, delegates
and interfaces that only signatures mention. `leaves` lists the members that reflection showed.
-/

namespace ScriptTypings

structure PropertyMember where
  typeName : Json
  description : Json := .text ""
  deriving DecidableEq

structure InterfaceDeclaration where
  name : String
  fullname : Json
  description : Json := .text ""
  bases : List Json := []
  typeParameters : List Json := []
  methods : NameMap (List Signature) := []
  properties : NameMap PropertyMember := []
  deriving DecidableEq

/-- What a class has beside its members. A class without constructor cannot be made by scripts. -/
structure ClassHeader where
  name : String
  fullname : String
  description : Json := .text ""
  base : Option String := none
  interfaces : List Json := []
  constructor : Option (List Signature) := none
  dispatchesEvents : Bool := false
  dispatchesStaticEvents : Bool := false
  isAttribute : Bool := false
  deriving DecidableEq

inductive Surface
  | space (name fullname : String) (description : Json) (members : List (String × Surface))
  | enumeration (name fullname : String) (description : Json) (members : List (String × Surface))
  | cls (header : ClassHeader) (statics prototype : List (String × Surface))
  | record (name : String) (fullname description : Json) (members : List Slot)
  | delegate (name : String) (fullname description : Json) (signature : Signature)
  | interface (declaration : InterfaceDeclaration)
  | function (signatures : List Signature)
  | event (handler description : Json)
  | property (member : PropertyMember)
  | unresolved (placeholder : String)

namespace Surface

instance : Inhabited Surface := ⟨unresolved ""⟩

def isEvent : Surface → Bool
  | event _ _ => true
  | _ => false

def isUnresolved : Surface → Bool
  | unresolved _ => true
  | _ => false

/-- Whether a node is declared in a namespace of its own beside a class that holds it. -/
def isNested : Surface → Bool
  | space _ _ _ _ => true
  | enumeration _ _ _ _ => true
  | cls _ _ _ => true
  | _ => false

/-- The name that the node carries itself. -/
def ownName : Surface → String
  | space name _ _ _ => name
  | enumeration name _ _ _ => name
  | cls header _ _ => header.name
  | record name _ _ _ => name
  | delegate name _ _ _ => name
  | interface declaration => declaration.name
  | _ => ""

mutual

/-- The members below a node that reflection showed, those of a class's own object first. -/
def leaves : Surface → List Surface
  | space _ _ _ members => leavesOf members
  | enumeration _ _ _ members => leavesOf members
  | cls _ statics prototype => leavesOf statics ++ leavesOf prototype
  | function signatures => [function signatures]
  | event handler description => [event handler description]
  | property member => [property member]
  | unresolved placeholder => [unresolved placeholder]
  | _ => []

def leavesOf : List (String × Surface) → List Surface
  | [] => []
  | (_, node) :: members => node.leaves ++ leavesOf members

end

end Surface

end ScriptTypings
