import ScriptTypings.Merge.Expansion
import ScriptTypings.Reflected

/-!
# Resolving the reflected tree

Every reflected member is looked up in the corpus under the full name of its parent and its own
name. `Reference.resolve` gives the surface with all reflected members; `Surface.withListeners` then
drops the reflected listener functions of classes that dispatch events. `Reference.resolveTrace`
lists the steps.
-/

namespace ScriptTypings

namespace Reference

def describe (r : Reference) (fullname : String) : Json :=
  ((r.corpus.get? fullname).map Entry.description).getD ""

/-- The member that a placeholder stands for. -/
def resolveLeaf (r : Reference) (fullname placeholder : String) : Surface :=
  match r.corpus.get? fullname with
  | some ⟨_, _, .function signatures⟩ => .function (signatures.map r.qualifySignature)
  | some ⟨_, description, .event handler⟩ => .event (r.qualify handler) description
  | some ⟨_, description, .property typeName⟩ =>
    .property (r.qualifyProperty typeName description)
  | _ => .unresolved placeholder

def isEnumeration (r : Reference) (fullname : String) : Bool :=
  match r.corpus.get? fullname with
  | some ⟨_, _, .enumeration⟩ => true
  | _ => false

/-- The name under which a class's constructor is documented. -/
def constructorName (fullname : String) : String :=
  Identifier.member fullname "constructor"

/-- The signatures of a class's constructor, if it is documented. -/
def constructor? (r : Reference) (fullname : String) : Option (List Signature) :=
  r.corpus.function? (constructorName fullname)

/-- The interfaces that a class's page lists. -/
def classInterfaces (r : Reference) (fullname : String) : List Json :=
  match r.corpus.get? fullname with
  | some ⟨_, _, .cls interfaces _⟩ => interfaces
  | _ => []

def isAttribute (r : Reference) (fullname : String) : Bool :=
  match r.corpus.get? fullname with
  | some ⟨_, _, .cls _ isAttribute⟩ => isAttribute
  | _ => false

/-- What the corpus says about a class. -/
def classHeader (r : Reference) (name fullname : String) (base : Option String) : ClassHeader :=
  { name, fullname, description := r.describe fullname, base,
    interfaces := (r.classInterfaces fullname).map r.qualify,
    constructor := (r.constructor? fullname).map fun signatures =>
      signatures.map r.qualifySignature,
    isAttribute := r.isAttribute fullname }

mutual

/-- The surface of a reflected node; the parent's full name goes before the names of its
placeholders. -/
def resolve (r : Reference) (parent name : String) : Reflected → Surface
  | .placeholder word => r.resolveLeaf (Identifier.member parent name) word
  | .space fullname members =>
    -- at run time an enumeration is an object like any namespace
    if r.isEnumeration fullname then
      .enumeration name fullname (r.describe fullname) (resolveMembers r fullname members)
    else .space name fullname (r.describe fullname) (resolveMembers r fullname members)
  | .cls fullname base statics prototype =>
    .cls (r.classHeader name fullname base) (resolveMembers r fullname statics)
      (resolveMembers r fullname prototype)

def resolveMembers (r : Reference) (parent : String) :
    List (String × Reflected) → List (String × Surface)
  | [] => []
  | (name, node) :: members => (name, resolve r parent name node) :: resolveMembers r parent members

end

/-- Looks up what a placeholder stands for; one without entry is noted. -/
def leafTrace (r : Reference) (fullname : String) : MergeTrace :=
  match r.corpus.get? fullname with
  | some ⟨_, _, .function signatures⟩ => r.signaturesTrace signatures
  | some ⟨_, _, .event handler⟩ => r.typeTrace handler
  | some ⟨_, _, .property typeName⟩ => r.typeTrace typeName
  | _ => Trace.step (.note ("No notation for " ++ fullname))

/-- Enters a namespace, with the types that its page lists. -/
def spaceTrace (r : Reference) (fullname : String) : MergeTrace :=
  match r.corpus.get? fullname with
  | some ⟨_, _, .space listing⟩ =>
    let texts := listing.types.takeWhile Json.isText
    Trace.step (.space fullname (texts.map fun id => Text.lowered id.asText)) ++
      listing.types.flatMap Trace.use
  | _ => Trace.step (.space fullname [])

mutual

/-- The steps of resolving a reflected node; the namespaces in it are numbered from the given number
on. -/
def resolveTrace (r : Reference) (number : Nat) (parent name : String) : Reflected → MergeTrace
  | .placeholder _ => r.leafTrace (Identifier.member parent name)
  | .space fullname members =>
    if r.isEnumeration fullname then resolveTraceOf r number none fullname members
    else r.spaceTrace fullname ++ resolveTraceOf r (number + 1) (some number) fullname members
  | .cls fullname _ statics prototype =>
    let own := resolveTraceOf r number none fullname statics
    r.typesTrace (r.classInterfaces fullname) ++ own ++
      resolveTraceOf r (number + own.spaceCount) none fullname prototype ++
      r.signaturesTrace ((r.constructor? fullname).getD [])

/-- The steps of resolving the members of a node; a namespace holds them under its number. -/
def resolveTraceOf (r : Reference) (number : Nat) (holder : Option Nat) (parent : String) :
    List (String × Reflected) → MergeTrace
  | [] => []
  | (name, node) :: members =>
    let trace := resolveTrace r number parent name node
    trace ++ MergeTrace.enlist holder name ++
      resolveTraceOf r (number + trace.spaceCount) holder parent members

end

end Reference

namespace Surface

def listenerNames : List String := ["addEventListener", "removeEventListener"]

def dispatches (members : List (String × Surface)) : Bool :=
  members.any fun m => m.2.isEvent

/-- The members of a class, without reflected listener functions if some member is an event. -/
def withoutListeners (members : List (String × Surface)) : List (String × Surface) :=
  if dispatches members then members.filter fun m => !listenerNames.contains m.1 else members

mutual

/-- The surface on which classes that dispatch events have no reflected listener functions. -/
def withListeners : Surface → Surface
  | space name fullname description members =>
    space name fullname description (withListenersOf members)
  | enumeration name fullname description members =>
    enumeration name fullname description (withListenersOf members)
  | cls header statics prototype =>
    cls
      { header with
        dispatchesEvents := dispatches prototype
        dispatchesStaticEvents := dispatches statics }
      (withoutListeners (withListenersOf statics)) (withoutListeners (withListenersOf prototype))
  | other => other

def withListenersOf : List (String × Surface) → List (String × Surface)
  | [] => []
  | (name, node) :: members => (name, node.withListeners) :: withListenersOf members

end

/-- A namespace of the surface, with the names of its members. -/
structure Space where
  fullname : String
  names : List String
  deriving DecidableEq, Repr

mutual

/-- The namespaces of a surface, each before those inside it. -/
def spaces : Surface → List Space
  | space _ fullname _ members => ⟨fullname, members.map Prod.fst⟩ :: spacesOf members
  | enumeration _ _ _ members => spacesOf members
  | cls _ statics prototype => spacesOf statics ++ spacesOf prototype
  | _ => []

def spacesOf : List (String × Surface) → List Space
  | [] => []
  | (_, node) :: members => node.spaces ++ spacesOf members

end

mutual

/-- Puts declarations behind the members of namespaces, which are numbered from the given number on
in the order of `spaces`. -/
def attach (additions : Nat → List (String × Surface)) (number : Nat) : Surface → Surface
  | space name fullname description members =>
    space name fullname description
      (attachAll additions (number + 1) members ++ additions number)
  | enumeration name fullname description members =>
    enumeration name fullname description (attachAll additions number members)
  | cls header statics prototype =>
    cls header (attachAll additions number statics)
      (attachAll additions (number + (spacesOf statics).length) prototype)
  | other => other

def attachAll (additions : Nat → List (String × Surface)) (number : Nat) :
    List (String × Surface) → List (String × Surface)
  | [] => []
  | (name, node) :: members =>
    (name, attach additions number node) ::
      attachAll additions (number + node.spaces.length) members

end

end Surface

end ScriptTypings
