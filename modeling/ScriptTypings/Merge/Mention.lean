import ScriptTypings.Surface.Basic
import ScriptTypings.Text.LowerCase
import ScriptTypings.TypeExpr

/-!
# Types mentioned on the surface

`Surface.mentions` lists the type names in signatures, properties and lists of interfaces, in the
order in which the merge meets them. A `Memory` keeps each of them once, up to case.
-/

namespace ScriptTypings

open Text

/-- The names that a value mentions as a type text. -/
def Json.mentions (type : Json) : List String :=
  TypeExpr.mentioned type.asText

namespace Slot

def mentions (slot : Slot) : List String :=
  slot.typeName.mentions

end Slot

namespace Signature

/-- The names in a signature, those of its result first. -/
def mentions (signature : Signature) : List String :=
  (match signature.returned with
    | .typed type _ => type.mentions
    | _ => []) ++ signature.parameters.flatMap Slot.mentions

end Signature

namespace Surface

mutual

def mentions : Surface → List String
  | space _ _ _ members => mentionsOf members
  | enumeration _ _ _ members => mentionsOf members
  | cls header statics prototype =>
    header.interfaces.flatMap Json.mentions ++ mentionsOf statics ++ mentionsOf prototype ++
      (header.constructor.getD []).flatMap Signature.mentions
  | record _ _ _ members => members.flatMap Slot.mentions
  | delegate _ _ _ signature => signature.mentions
  | interface d =>
    d.bases.flatMap Json.mentions ++ d.methods.flatMap (fun m => m.2.flatMap Signature.mentions) ++
      d.properties.flatMap fun p => p.2.typeName.mentions
  | function signatures => signatures.flatMap Signature.mentions
  | event handler _ => handler.mentions
  | property member => member.typeName.mentions
  | unresolved _ => []

def mentionsOf : List (String × Surface) → List String
  | [] => []
  | (_, node) :: members => node.mentions ++ mentionsOf members

end

end Surface

/-- Type names in the order in which they came first, by their lower-case form. -/
structure Memory where
  byKey : NameMap String := []

namespace Memory

def names (memory : Memory) : List String :=
  memory.byKey.map Prod.snd

def contains (memory : Memory) (name : String) : Bool :=
  NameMap.has (lowered name) memory.byKey

def add (memory : Memory) (name : String) : Memory :=
  if memory.contains name then memory else ⟨memory.byKey ++ [(lowered name, name)]⟩

def addAll (memory : Memory) (names : List String) : Memory :=
  names.foldl add memory

/-- Remembers the names that a type text mentions. -/
def remember (memory : Memory) (text : String) : Memory :=
  memory.addAll (TypeExpr.mentioned text)

end Memory

end ScriptTypings
