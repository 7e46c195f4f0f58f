import ScriptTypings.Identifier
import ScriptTypings.NameMap
import ScriptTypings.Trace
import ScriptTypings.TypeExpr

/-!
# Types in declarations

A type expression is written with the names of script types for the documented primitive ones,
brackets behind the element type of an array, and as many type arguments as its name requires.
Results of asynchronous functions are wrapped in promise types. `typeTrace` tells where a type
cannot be written.
-/

namespace ScriptTypings.Declarations

open Text

/-- The number of type arguments that a type requires, by the lower-case form of its name. -/
structure ArityTable where
  counts : NameMap Int := []

namespace ArityTable

def ofPairs (pairs : List (String × Int)) : ArityTable :=
  ⟨NameMap.ofPairs (pairs.map fun p => (lowered p.1, p.2))⟩

/-- The number for a name: its own, or else that of its last segment. -/
def count (table : ArityTable) (name : String) : Int :=
  let key := lowered name
  match NameMap.find? key table.counts with
  | some count => count
  | none => (NameMap.find? (Identifier.lastSegment key) table.counts).getD 0

/-- How many arguments a name with some given ones lacks. -/
def lacking (table : ArityTable) (name : String) (given : Nat) : Nat :=
  (table.count name - given).toNat

/-- The most arguments that are filled in. The bound stands for memory running out, which happens at
a number that depends on the machine. -/
def mostFilled : Nat := 1000000000

/-- The arguments that are filled in for those that a name lacks; none if they are too many. -/
def filled (table : ArityTable) (name : String) (given : Nat) : List String :=
  let missing := table.lacking name given
  if missing ≤ mostFilled then List.replicate missing "any" else []

end ArityTable

/-- Script types by the lower-case form of their documented names. -/
def primitiveTypes : NameMap String :=
  [("number", "number"), ("string", "string"), ("boolean", "boolean"), ("object", "any"),
    ("unknown", "any"), ("any", "any"), ("void", "void"), ("date", "Date"),
    ("function", "Function")]

/-- Script types by the lower-case form of what reflection shows for a value. -/
def placeholderTypes : NameMap String :=
  [("unknown", "any"), ("undefined", "any"), ("null", "any"), ("object", "any"),
    ("function", "Function"), ("number", "number"), ("string", "string"), ("boolean", "boolean")]

def placeholderType (placeholder : String) : String :=
  (NameMap.find? (lowered placeholder) placeholderTypes).getD "any"

/-- A name with type arguments, if there are any. -/
def applied (base : String) (arguments : List String) : String :=
  if arguments.isEmpty then base else base ++ "<" ++ join ", " arguments ++ ">"

/-- A named type whose arguments are written already. -/
def named (table : ArityTable) (base : String) (arguments : List String) : String :=
  match arguments, NameMap.find? (lowered base) primitiveTypes with
  | [], some primitive => primitive
  | _, _ => applied base (arguments ++ table.filled base arguments.length)

mutual

def writeType (table : ArityTable) : TypeExpr → String
  | .named base arguments => named table base (writeTypes table arguments)
  | .array element => writeType table element ++ "[]"

def writeTypes (table : ArityTable) : List TypeExpr → List String
  | [] => []
  | argument :: arguments => writeType table argument :: writeTypes table arguments

end

/-- The type that a type text stands for. -/
def typeName (table : ArityTable) (text : String) : String :=
  writeType table (.readTrimmed text)

/-- How many arguments a name lacks if they are too many; a primitive type lacks none. -/
def excessOf? (table : ArityTable) (base : String) (given : Nat) : Option Nat :=
  let missing := table.lacking base given
  if given = 0 && NameMap.has (lowered base) primitiveTypes then none
  else if missing ≤ ArityTable.mostFilled then none
  else some missing

mutual

/-- How many arguments are missing at the first place in a type where they are too many. -/
def excess? (table : ArityTable) : TypeExpr → Option Nat
  | .named base arguments =>
    match excessAmong? table arguments with
    | some missing => some missing
    | none => excessOf? table base arguments.length
  | .array element => excess? table element

def excessAmong? (table : ArityTable) : List TypeExpr → Option Nat
  | [] => none
  | argument :: arguments =>
    match excess? table argument with
    | some missing => some missing
    | none => excessAmong? table arguments

end

/-- The steps of writing a type, which must be a text. -/
def typeTrace {α : Type} (table : ArityTable) : Json → Trace α
  | .text s => ((excess? table (.readTrimmed s)).map fun n => .error (.excess n)).toList
  | other => Trace.use other

/-- The asynchronous results with promise types of their own. -/
def asyncResults : List String :=
  ["IAsyncAction", "IAsyncActionWithProgress", "IAsyncOperation", "IAsyncOperationWithProgress"]

/-- The promise for a result of which the type is written already. -/
def promiseOf (written : String) : String :=
  let g := TypeText.splitGeneric written.toList
  let short := Identifier.lastSegment (.ofList g.1)
  if asyncResults.contains short then
    applied ("Windows.Foundation.IPromiseWith" ++ short) (g.2.map String.ofList)
  else if endsWith short.toList "Operation".toList then
    "Windows.Foundation.IPromiseWithOperation<any, " ++ written ++ ">"
  else "Windows.Foundation.IPromise<" ++ written ++ ">"

def promiseType (table : ArityTable) (text : String) : String :=
  promiseOf (typeName table text)

end ScriptTypings.Declarations
