import ScriptTypings.Json.Display

/-!
# The reflected tree

Reflection over the platform's global object gives a tree of namespaces, classes and placeholders
for everything else. `Reflected.ofJson` reads the tree from its JSON form, in which an object tells
its kind and full name in reserved members.
-/

namespace ScriptTypings

inductive Reflected
  | placeholder (word : String)
  | space (fullname : String) (members : List (String × Reflected))
  | cls (fullname : String) (base : Option String) (statics prototype : List (String × Reflected))

/-- Why a value is no reflected tree. -/
inductive ReflectionError
  | unexpectedValue (path shown : String)
  | missingFullname (path : String)
  | unexpectedPrototype (fullname : String)
  | unexpectedKind (shown fullname : String)
  | rootKind
  deriving DecidableEq, Repr

namespace ReflectionError

/-- The path of a node; the root has none. -/
def place (path : String) : String :=
  if path = "" then "<root>" else path

def message : ReflectionError → String
  | unexpectedValue path shown => "Unexpected value at " ++ place path ++ ": " ++ shown
  | missingFullname path => "Missing __fullname at " ++ place path
  | unexpectedPrototype fullname => "Unexpected prototype at " ++ fullname
  | unexpectedKind shown fullname => "Unexpected __type " ++ shown ++ " at " ++ fullname
  | rootKind => "Iteration tree root must be a structure"

end ReflectionError

namespace Reflected

instance : Inhabited Reflected := ⟨placeholder ""⟩

/-- Members of an object that say something about the object itself. -/
def isReserved (name : String) : Bool :=
  name = "__type" || name = "__fullname" || name = "__extends"

/-- The base of a class, if it is a text. -/
def baseOf (members : List (String × Json)) : Option String :=
  match NameMap.find? "__extends" members with
  | some (.text base) => some base
  | _ => none

mutual

/-- The node that a value at a path stands for. -/
def ofJson (path : String) : Json → Except ReflectionError Reflected
  | .text word => .ok (placeholder word)
  | .null => .ok (placeholder "null")
  | .object members =>
    match NameMap.find? "__fullname" members, NameMap.find? "__type" members with
    | some (.text fullname), some (.text "structure") =>
      match ofMembers fullname isReserved members with
      | .ok nodes => .ok (space fullname nodes)
      | .error e => .error e
    | some (.text fullname), some (.text "class") =>
      match ofMembers fullname (fun name => isReserved name || name = "prototype") members with
      | .error e => .error e
      | .ok statics =>
        match ofPrototype fullname members with
        | .ok prototype => .ok (cls fullname (baseOf members) statics prototype)
        | .error e => .error e
    | some (.text fullname), kind =>
      .error (.unexpectedKind (kind.getD .null).display fullname)
    | _, _ => .error (.missingFullname path)
  | other => .error (.unexpectedValue path other.display)

/-- The nodes of the members that are not left out, below a path. -/
def ofMembers (path : String) (leavesOut : String → Bool) :
    List (String × Json) → Except ReflectionError (List (String × Reflected))
  | [] => .ok []
  | (name, value) :: members =>
    if leavesOut name then ofMembers path leavesOut members
    else
      match ofJson (path ++ "." ++ name) value with
      | .error e => .error e
      | .ok node =>
        match ofMembers path leavesOut members with
        | .ok nodes => .ok ((name, node) :: nodes)
        | .error e => .error e

/-- The nodes of a class's prototype, looked up among the members of the class. -/
def ofPrototype (fullname : String) :
    List (String × Json) → Except ReflectionError (List (String × Reflected))
  | [] => .ok []
  | (name, value) :: members =>
    if name = "prototype" then ofPrototypeValue fullname value else ofPrototype fullname members

def ofPrototypeValue (fullname : String) :
    Json → Except ReflectionError (List (String × Reflected))
  | .object members => ofMembers (fullname ++ ".prototype") isReserved members
  | other => if other.isEmpty then .ok [] else .error (.unexpectedPrototype fullname)

end

/-- A namespace at the top of a reflected tree. -/
structure Root where
  fullname : String
  members : List (String × Reflected)

namespace Root

def node (root : Root) : Reflected :=
  space root.fullname root.members

end Root

/-- The tree as a root, if it is a namespace. -/
def root? : Reflected → Option Root
  | space fullname members => some ⟨fullname, members⟩
  | _ => none

/-- The tree of a whole file, whose root is a namespace. -/
def rootOfJson (value : Json) : Except ReflectionError Root :=
  match ofJson "" value with
  | .error e => .error e
  | .ok node =>
    match node.root? with
    | some root => .ok root
    | none => .error .rootKind

end Reflected

end ScriptTypings
