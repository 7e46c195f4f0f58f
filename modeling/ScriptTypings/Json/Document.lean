import ScriptTypings.Json.Basic
import ScriptTypings.NameMap

/-!
# JSON documents

A document is what a JSON text spells. An escape in its texts and names may stand for half of a
surrogate pair whose other half is missing. Such a lone surrogate is no character: a text with one
differs from all others, but it cannot be written as UTF-8. In the value of a document one of the
last characters for private use stands for it, which has no case and is no letter, digit or blank
either.
-/

namespace ScriptTypings.Json

/-- A code point in a text of a document. -/
inductive CodePoint
  | char (c : Char)
  | lone (surrogate : Nat)
  deriving DecidableEq, Repr

namespace CodePoint

def isChar : CodePoint → Bool
  | char _ => true
  | lone _ => false

/-- The character that stands for a lone surrogate. -/
def standIn (surrogate : Nat) : Char :=
  .ofNat (0x10F800 + (surrogate - 0xD800))

/-- Whether a character may stand for a lone surrogate. -/
def isStandIn (c : Char) : Bool :=
  0x10F800 ≤ c.toNat

/-- The character of a code point in a value. -/
def shown : CodePoint → Char
  | char c => c
  | lone surrogate => standIn surrogate

/-- The code points of a text of characters. -/
def ofString (s : String) : List CodePoint :=
  s.toList.map char

/-- Code points as a text of characters. -/
def toString (points : List CodePoint) : String :=
  .ofList (points.map shown)

end CodePoint

inductive Document
  | null
  | bool (value : Bool)
  | whole (value : Int)
  | real (value : Number.Binary64)
  | text (points : List CodePoint)
  | list (items : List Document)
  | object (members : List (List CodePoint × Document))

namespace Document

instance : Inhabited Document := ⟨null⟩

mutual

/-- The value that a document stands for. -/
def value : Document → Json
  | null => .null
  | bool value => .bool value
  | whole n => .whole n
  | real x => .real x
  | text points => .text (CodePoint.toString points)
  | list items => .list (itemValues items)
  | object members => .object (NameMap.ofPairs (memberValues members))

def itemValues : List Document → List Json
  | [] => []
  | item :: items => item.value :: itemValues items

def memberValues : List (List CodePoint × Document) → List (String × Json)
  | [] => []
  | (name, document) :: members =>
    (CodePoint.toString name, document.value) :: memberValues members

end

mutual

/-- Whether a document has no lone surrogate, so that it can be written as UTF-8. -/
def isEncodable : Document → Bool
  | text points => points.all CodePoint.isChar
  | list items => itemsEncodable items
  | object members => membersEncodable members
  | _ => true

def itemsEncodable : List Document → Bool
  | [] => true
  | item :: items => item.isEncodable && itemsEncodable items

def membersEncodable : List (List CodePoint × Document) → Bool
  | [] => true
  | (name, document) :: members =>
    name.all CodePoint.isChar && document.isEncodable && membersEncodable members

end

end Document

/-- Whether a text has a character that may stand for a lone surrogate. -/
def standsIn (s : String) : Bool :=
  s.toList.any CodePoint.isStandIn

mutual

/-- Whether a text or a name in a value has a character that may stand for a lone surrogate. -/
def hasStandIn : Json → Bool
  | text s => standsIn s
  | list items => itemsStandIn items
  | object members => membersStandIn members
  | _ => false

def itemsStandIn : List Json → Bool
  | [] => false
  | item :: items => item.hasStandIn || itemsStandIn items

def membersStandIn : List (String × Json) → Bool
  | [] => false
  | (name, value) :: members => standsIn name || value.hasStandIn || membersStandIn members

end

end ScriptTypings.Json
