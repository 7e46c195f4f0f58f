import ScriptTypings.Merge.Mention
import ScriptTypings.Merge.ShortNames

/-!
# What happens during a merge

The merge remembers type names, enters namespaces whose pages list types, puts members into them,
and says what it does not find in the corpus. `MergeEvent`s are these in their order; a trace of
them also tells where the merge stops, because a value that is no text was used as one.
-/

namespace ScriptTypings

/-- A namespace is entered together with the lower-case forms of the types that its page lists; a
member is put into the namespace of a number. -/
inductive MergeEvent
  | mention (name : String)
  | space (fullname : String) (listed : List String)
  | member (space : Nat) (name : String)
  | note (text : String)
  deriving DecidableEq, Repr

namespace MergeEvent

def mention? : MergeEvent → Option String
  | mention name => some name
  | _ => none

def note? : MergeEvent → Option String
  | note text => some text
  | _ => none

def isSpace : MergeEvent → Bool
  | space _ _ => true
  | _ => false

end MergeEvent

abbrev MergeTrace := Trace MergeEvent

namespace MergeTrace

/-- Remembers the names that a value mentions. -/
def remember (type : Json) : MergeTrace :=
  Trace.useFilled type ++ type.mentions.map fun name => .ok (.mention name)

/-- Puts a member into a namespace, unless what holds it is none. -/
def enlist (holder : Option Nat) (name : String) : MergeTrace :=
  match holder with
  | some space => Trace.step (.member space name)
  | none => []

/-- How many namespaces are entered, until the merge stops. -/
def spaceCount (trace : MergeTrace) : Nat :=
  trace.done.countP MergeEvent.isSpace

/-- What is said, until the merge stops. -/
def notes (trace : MergeTrace) : List String :=
  trace.done.filterMap MergeEvent.note?

/-- The names that are remembered, until the merge stops. -/
def mentions (trace : MergeTrace) : List String :=
  trace.done.filterMap MergeEvent.mention?

end MergeTrace

namespace Reference

/-- Qualifies a type and remembers it. -/
def typeTrace (r : Reference) (type : Json) : MergeTrace :=
  r.shortNames.qualifying type ++ MergeTrace.remember (r.qualify type)

/-- Qualifies all types, and then remembers them. -/
def typesTrace (r : Reference) (types : List Json) : MergeTrace :=
  types.flatMap r.shortNames.qualifying ++
    types.flatMap fun type => MergeTrace.remember (r.qualify type)

def signatureTrace (r : Reference) (signature : Signature) : MergeTrace :=
  (match signature.returned with
    | .typed type _ => r.typeTrace type
    | _ => []) ++ signature.parameters.flatMap fun slot => r.typeTrace slot.typeName

def signaturesTrace (r : Reference) (signatures : List Signature) : MergeTrace :=
  signatures.flatMap r.signatureTrace

end Reference

end ScriptTypings
