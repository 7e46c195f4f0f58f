import ScriptTypings.NameMap
import ScriptTypings.Number.Binary64

/-!
# JSON values

Objects keep the order of their members, and whole numbers are kept apart from numbers with a
fraction or an exponent. `sortMembers` puts the members of every object in ascending order.
-/

namespace ScriptTypings

inductive Json
  | null
  | bool (value : Bool)
  | whole (value : Int)
  | real (value : Number.Binary64)
  | text (value : String)
  | list (items : List Json)
  | object (members : List (String × Json))

namespace Json

instance : Inhabited Json := ⟨null⟩

instance : Coe String Json := ⟨text⟩

def texts (items : List String) : Json :=
  list (items.map text)

def isText : Json → Bool
  | text _ => true
  | _ => false

/-- The text that a value is; other values count as the empty text. -/
def asText : Json → String
  | text s => s
  | _ => ""

/-- The member of an object; none for other values. -/
def member? (name : String) : Json → Option Json
  | object members => NameMap.find? name members
  | _ => none

/-- Whether a value counts as empty: null, false, zero, and everything of length zero. -/
def isEmpty : Json → Bool
  | null => true
  | bool value => !value
  | whole value => value = 0
  | real value => value.isZero
  | text value => value = ""
  | list items => items.isEmpty
  | object members => members.isEmpty

mutual

/-- The same value with the members of every object in ascending order of their names. -/
def sortMembers : Json → Json
  | list items => list (sortItems items)
  | object members => object (NameMap.sorted (sortEntries members))
  | other => other

def sortItems : List Json → List Json
  | [] => []
  | item :: items => item.sortMembers :: sortItems items

def sortEntries : List (String × Json) → List (String × Json)
  | [] => []
  | (name, value) :: entries => (name, value.sortMembers) :: sortEntries entries

end

end Json

end ScriptTypings
