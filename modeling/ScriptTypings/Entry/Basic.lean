import ScriptTypings.Json.Equality

/-!
# Documented items

An `Entry` is what a page says about one item of the platform: a class, a function, a property and
so on. Its identifier keeps the documented casing. Functions and delegates have signatures, whose
types are texts as the page spells them. An entry that was read from a file may hold other values in
the place of texts.
-/

namespace ScriptTypings

/-- A named, typed and described place: a parameter or a field. -/
structure Slot where
  name : Json
  typeName : Json
  description : Json := .text ""
  deriving DecidableEq

/-- What a function gives back. A marker is a bare word; `instance` marks a constructor. -/
inductive Returned
  | nothing
  | marker (word : String)
  | typed (typeName description : Json)
  | fields (members : List Slot) (description : Json)
  deriving DecidableEq

namespace Returned

/-- What a constructor gives back. -/
def newInstance : Returned := marker "instance"

end Returned

structure Signature where
  description : Json := .text ""
  parameters : List Slot := []
  returned : Returned := .nothing
  snippets : NameMap Json := []
  typeParameters : List Json := []
  deriving DecidableEq

/-- What an interface page lists. Members are identifiers of other entries; extensions are the
numbered interfaces that continue this one. -/
structure InterfaceListing where
  bases : List Json := []
  typeParameters : List Json := []
  methods : List Json := []
  properties : List Json := []
  extensions : List Json := []
  deriving DecidableEq

namespace InterfaceListing

/-- The identifiers of all members, methods first. -/
def members (listing : InterfaceListing) : List Json :=
  listing.methods ++ listing.properties

end InterfaceListing

/-- The types that a namespace page lists and reflection does not show. -/
structure NamespaceListing where
  structures : List Json := []
  delegates : List Json := []
  interfaces : List Json := []
  deriving DecidableEq

namespace NamespaceListing

/-- The identifiers of all listed types. -/
def types (listing : NamespaceListing) : List Json :=
  listing.structures ++ listing.delegates ++ listing.interfaces

end NamespaceListing

/-- What an entry says beyond its name and description, by the kind of item. -/
inductive Content
  | cls (interfaces : List Json) (isAttribute : Bool)
  | enumeration
  | space (listing : NamespaceListing)
  | interface (listing : InterfaceListing)
  | record (members : List Slot)
  | delegate (signature : Signature)
  | function (signatures : List Signature)
  | event (handler : Json)
  | property (typeName : Json)
  deriving DecidableEq

structure Entry where
  identifier : Json
  description : Json := .text ""
  content : Content
  deriving DecidableEq

end ScriptTypings
