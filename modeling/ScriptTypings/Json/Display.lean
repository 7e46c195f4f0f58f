import ScriptTypings.Json.Basic
import ScriptTypings.Number.Shortest
import ScriptTypings.Text.Quoted

/-!
# Values in messages

A message shows a value on one line, its texts quoted as `Text.quote` does.
-/

namespace ScriptTypings.Json

open Text

mutual

def display : Json → String
  | null => "None"
  | bool true => "True"
  | bool false => "False"
  | whole n => toString n
  | real x => x.text "inf" "nan"
  | text s => quote s
  | list [] => "[]"
  | list (item :: items) => "[" ++ display item ++ displayItems items ++ "]"
  | object [] => "\x7b\x7d"
  | object ((name, value) :: members) =>
    "\x7b" ++ quote name ++ ": " ++ display value ++ displayMembers members ++ "\x7d"

def displayItems : List Json → String
  | [] => ""
  | item :: items => ", " ++ display item ++ displayItems items

def displayMembers : List (String × Json) → String
  | [] => ""
  | (name, value) :: members =>
    ", " ++ quote name ++ ": " ++ display value ++ displayMembers members

end

/-- A value inside of a sentence: a text stands there as it is. -/
def shown : Json → String
  | text s => s
  | other => display other

end ScriptTypings.Json
